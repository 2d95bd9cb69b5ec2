import DialogueScript.Proofs.Syntax.Outline
import DialogueScript.Proofs.Syntax.Reading

/-!
# Parsed trees spell their source

What the parser gives for a source is a tree of the grammar: it holds spacing where spacing may
stand, its outline is well formed, and its text is the source (`spelled_of_parse`). The theorems go
through the rules one by one. Each says what the value of a rule is like and that the characters
between the cursors are its text.

Two properties of an outline are no matter of a single rule. A tag without an id has no literals
because the spacing in front of an id leaves no spacing for a literal. And no two runs stand next to
each other because a run stops only where no run can begin.
-/

set_option autoImplicit false
set_option relaxedAutoImplicit false

namespace DialogueScript.Syntax

open DialogueScript.Syntax.Parser

/-- A tag holds spacing where spacing may stand, and its outline is well formed. -/
def Tag.Spelled (tag : Tag) : Prop :=
  tag.Spaced ∧ tag.outline.WellFormed

/-- A piece of text holds spacing where spacing may stand, and its outline is well formed. -/
def Item.Spelled (item : Item) : Prop :=
  item.Spaced ∧ item.outline.WellFormed

/-- A text holds spacing where spacing may stand, and its outline is well formed. -/
def TaggedText.Spelled (items : TaggedText) : Prop :=
  items.Spaced ∧ items.outline.WellFormed

/-- The pieces of a text are spelled if the text is. -/
theorem spelled_of_mem {items : TaggedText} {item : Item} (hspelled : items.Spelled)
    (hitem : item ∈ items) : item.Spelled :=
  ⟨hspelled.1 item hitem, hspelled.2.each _ (List.mem_map_of_mem hitem)⟩

/-- A window holds spacing where spacing may stand, and its outline is well formed. -/
def Window.Spelled (window : Window) : Prop :=
  window.Spaced ∧ window.outline.WellFormed

/-- A source holds spacing where spacing may stand, and its outline is well formed. -/
def Document.Spelled (document : Document) : Prop :=
  document.Spaced ∧ document.outline.WellFormed

variable {cursor behind : Cursor}

/-! ### Words -/

theorem reads_of_spacing {text : List Char}
    (h : (Grammar.spacing cursor).result = some (text, behind)) :
    text ∈ Spelling.spacing ∧ cursor.Reads text behind := by
  obtain ⟨hspacing, hreads, _⟩ := reads_of_span h
  exact ⟨Spelling.mem_spacing.mpr hspacing, hreads⟩

/-- Assumes: a word in lower case. Its keyword reads a spelling of it in either case. -/
theorem reads_of_anyCase {word text : List Char} (hword : ∀ c ∈ word, c.isLower = true)
    (h : (keyword word cursor).result = some (text, behind)) :
    text ∈ Spelling.anyCase word ∧ cursor.Reads text behind := by
  obtain ⟨hmap, hreads⟩ := reads_of_keyword h
  exact ⟨(Spelling.mem_anyCase hword).mpr hmap, hreads⟩

theorem reads_of_identifier {word : List Char}
    (h : (Grammar.identifier cursor).result = some (word, behind)) :
    word ∈ Spelling.identifier ∧ cursor.Reads word behind := by
  obtain ⟨head, middle, hone, h⟩ := result_bind_eq_some_iff.mp h
  obtain ⟨tail, last, hspan, hpure⟩ := result_bind_eq_some_iff.mp h
  obtain ⟨rfl, rfl⟩ := Prod.mk.inj (Option.some.inj hpure)
  obtain ⟨hhead, hreads⟩ := reads_of_one hone
  obtain ⟨htail, hmore, _⟩ := reads_of_span hspan
  exact ⟨Spelling.mem_identifier.mpr ⟨head, tail, rfl, hhead, htail⟩, hreads.trans hmore⟩

theorem reads_of_tagId {word : List Char}
    (h : (Grammar.tagId cursor).result = some (word, behind)) :
    word ∈ Spelling.tagId ∧ cursor.Reads word behind := by
  obtain ⟨head, middle, hone, h⟩ := result_bind_eq_some_iff.mp h
  obtain ⟨tail, last, hspan, hpure⟩ := result_bind_eq_some_iff.mp h
  obtain ⟨rfl, rfl⟩ := Prod.mk.inj (Option.some.inj hpure)
  obtain ⟨hhead, hreads⟩ := reads_of_one hone
  obtain ⟨htail, hmore, _⟩ := reads_of_span hspan
  exact ⟨Spelling.mem_tagId.mpr ⟨head, tail, rfl, hhead, htail⟩, hreads.trans hmore⟩

theorem reads_of_literal {word : List Char}
    (h : (Grammar.literal cursor).result = some (word, behind)) :
    word ∈ Spelling.literal ∧ cursor.Reads word behind := by
  obtain ⟨sign, first, hsign, h⟩ := result_bind_eq_some_iff.mp h
  obtain ⟨head, middle, hone, h⟩ := result_bind_eq_some_iff.mp h
  obtain ⟨tail, last, hspan, hpure⟩ := result_bind_eq_some_iff.mp h
  obtain ⟨rfl, rfl⟩ := Prod.mk.inj (Option.some.inj hpure)
  obtain ⟨hminus, hbefore⟩ := reads_of_optional (fun c ↦ [c])
    (fun c ↦ (c == '-') = true) reads_of_one hsign
  obtain ⟨hhead, hreads⟩ := reads_of_one hone
  obtain ⟨htail, hmore, _⟩ := reads_of_span hspan
  have hlist : (sign.map fun c ↦ [c]).getD [] = sign.toList := by
    cases sign <;> rfl
  rw [hlist] at hbefore
  refine ⟨Spelling.mem_literal.mpr ⟨sign.toList, head, tail, rfl, ?_, hhead, htail⟩,
    hbefore.trans (hreads.trans hmore)⟩
  cases sign with
  | none => exact Or.inl rfl
  | some c => exact Or.inr (by rw [eq_of_beq (hminus c rfl)]; rfl)

/-! ### Tags -/

theorem reads_of_argument {argument : Argument}
    (h : (Grammar.argument cursor).result = some (argument, behind)) :
    (argument.gap ∈ Spelling.gap ∧ argument.literal ∈ Spelling.literal) ∧
      cursor.Reads argument.text behind := by
  obtain ⟨gap, middle, hgap, h⟩ := result_bind_eq_some_iff.mp h
  obtain ⟨literal, last, hliteral, hpure⟩ := result_bind_eq_some_iff.mp h
  obtain ⟨rfl, rfl⟩ := Prod.mk.inj (Option.some.inj hpure)
  obtain ⟨hne, hspacing, hreads, _⟩ := reads_of_span1 hgap
  obtain ⟨hword, hmore⟩ := reads_of_literal hliteral
  exact ⟨⟨Spelling.mem_gap.mpr ⟨hne, hspacing⟩, hword⟩, hreads.trans hmore⟩

/-- Assumes: the characters between two cursors are arguments, and spacing has stopped at the first
cursor. Then there are no arguments. -/
theorem args_eq_nil_of_stops {args : List Argument}
    (hargs : ∀ argument ∈ args, argument.gap ∈ Spelling.gap)
    (hreads : cursor.Reads (args.flatMap Argument.text) behind)
    (hstops : Stops isSpacing cursor.rest) : args = [] := by
  cases args with
  | nil => rfl
  | cons argument later =>
    obtain ⟨hne, hspacing⟩ := Spelling.mem_gap.mp (hargs argument (by simp))
    obtain ⟨c, more, hgap⟩ := List.exists_cons_of_ne_nil hne
    have hc : isSpacing c = true := hspacing c (by simp [hgap])
    rw [hreads.1, List.flatMap_cons, Argument.text, hgap] at hstops
    simp [hc] at hstops

theorem reads_of_tag {tag : Tag} (h : (Grammar.tag cursor).result = some (tag, behind)) :
    tag.Spelled ∧ cursor.Reads tag.text behind := by
  obtain ⟨_, c₁, hopen, h⟩ := result_bind_eq_some_iff.mp h
  obtain ⟨lead, c₂, hlead, h⟩ := result_bind_eq_some_iff.mp h
  obtain ⟨id, c₃, hid, h⟩ := result_bind_eq_some_iff.mp h
  obtain ⟨args, c₄, hargs, h⟩ := result_bind_eq_some_iff.mp h
  obtain ⟨tail, c₅, htail, h⟩ := result_bind_eq_some_iff.mp h
  obtain ⟨_, c₆, hclose, hpure⟩ := result_bind_eq_some_iff.mp h
  obtain ⟨rfl, rfl⟩ := Prod.mk.inj (Option.some.inj hpure)
  obtain ⟨hleadSpacing, hleadReads, hstops⟩ := reads_of_span hlead
  obtain ⟨hidWord, hidReads⟩ := reads_of_optional (fun word ↦ word)
    (· ∈ Spelling.tagId) reads_of_tagId hid
  obtain ⟨hturn, hargsReads⟩ := reads_of_many Argument.text
    (fun argument _ ↦ argument.gap ∈ Spelling.gap ∧ argument.literal ∈ Spelling.literal)
    reads_of_argument hargs
  obtain ⟨htailSpacing, htailReads, _⟩ := reads_of_span htail
  have heach := InTurn.forall_mem hturn
  refine ⟨⟨⟨Spelling.mem_spacing.mpr hleadSpacing, fun a ha ↦ (heach a ha).1,
    Spelling.mem_spacing.mpr htailSpacing⟩, ⟨hidWord, ?_, ?_⟩⟩, ?_⟩
  · intro literal hliteral
    obtain ⟨argument, hargument, rfl⟩ := List.mem_map.mp hliteral
    exact (heach argument hargument).2
  · intro hnone
    obtain rfl : id = none := hnone
    have hsame : c₂.rest = c₃.rest := hidReads.1
    rw [hsame] at hstops
    exact congrArg _ (args_eq_nil_of_stops (fun a ha ↦ (heach a ha).1) hargsReads hstops)
  · have hreads := (reads_of_char hopen).trans (hleadReads.trans (hidReads.trans
      (hargsReads.trans (htailReads.trans (reads_of_char hclose)))))
    simpa [Tag.text, Tag.beforeArgs, Tag.beforeId] using hreads

/-! ### Texts -/

theorem reads_of_item {item : Item} (h : (Grammar.item cursor).result = some (item, behind)) :
    (item.Spelled ∧ (item.outline.IsRun → Stops isPlain behind.rest)) ∧
      cursor.Reads item.text behind := by
  rcases result_of_orElse h with h | h
  · obtain ⟨tag, last, htag, hpure⟩ := result_bind_eq_some_iff.mp h
    obtain ⟨rfl, rfl⟩ := Prod.mk.inj (Option.some.inj hpure)
    obtain ⟨hspelled, hreads⟩ := reads_of_tag htag
    exact ⟨⟨hspelled, False.elim⟩, hreads⟩
  · obtain ⟨run, last, hrun, hpure⟩ := result_bind_eq_some_iff.mp h
    obtain ⟨rfl, rfl⟩ := Prod.mk.inj (Option.some.inj hpure)
    obtain ⟨hne, hplain, hreads, hstops⟩ := reads_of_span1 hrun
    exact ⟨⟨⟨trivial, Spelling.mem_run.mpr ⟨hne, hplain⟩⟩, fun _ ↦ hstops⟩, hreads⟩

/-- Assumes: pieces of text that are spelled, where no plain character stands behind a run. Then the
text is spelled, since a run begins with a plain character. -/
theorem spelled_of_inTurn {items : TaggedText} {rest : List Char}
    (h : InTurn (fun item more ↦ item.Spelled ∧ (item.outline.IsRun → Stops isPlain more))
      Item.text items rest) : items.Spelled := by
  induction items with
  | nil => exact ⟨by simp [TaggedText.Spaced], ⟨by simp [TaggedText.outline], .nil⟩⟩
  | cons item later ih =>
    obtain ⟨⟨hspelled, hstops⟩, hlater⟩ := h
    obtain ⟨hspaced, heach, hruns⟩ := ih hlater
    refine ⟨List.forall_mem_cons.mpr ⟨hspelled.1, hspaced⟩,
      ⟨List.forall_mem_cons.mpr ⟨hspelled.2, heach⟩, List.isChain_cons.mpr ⟨?_, hruns⟩⟩⟩
    rintro next hnext ⟨hfirst, hsecond⟩
    cases later with
    | nil => simp at hnext
    | cons other more =>
      obtain rfl : other.outline = next := by simpa using hnext
      cases other with
      | tag t => exact hsecond
      | run text =>
        obtain ⟨hne, hplain⟩ := Spelling.mem_run.mp (heach (.run text) List.mem_cons_self)
        obtain ⟨c, tail, rfl⟩ := List.exists_cons_of_ne_nil hne
        have hc : isPlain c = false := (stops_cons isPlain c _).mp (hstops hfirst)
        rw [hplain c (by simp)] at hc
        exact Bool.noConfusion hc

theorem reads_of_taggedText {items : TaggedText}
    (h : (Grammar.taggedText cursor).result = some (items, behind)) :
    items.Spelled ∧ cursor.Reads items.text behind := by
  obtain ⟨hturn, hreads⟩ := reads_of_many Item.text
    (fun item more ↦ item.Spelled ∧ (item.outline.IsRun → Stops isPlain more))
    reads_of_item h
  exact ⟨spelled_of_inTurn hturn, hreads⟩

theorem reads_of_speaker {name : TaggedText}
    (h : (Grammar.speaker cursor).result = some (name, behind)) :
    name.Spelled ∧ cursor.Reads (speakerText name) behind := by
  obtain ⟨_, c₁, hopen, h⟩ := result_bind_eq_some_iff.mp h
  obtain ⟨items, c₂, htext, h⟩ := result_bind_eq_some_iff.mp h
  obtain ⟨_, c₃, hclose, hpure⟩ := result_bind_eq_some_iff.mp h
  obtain ⟨rfl, rfl⟩ := Prod.mk.inj (Option.some.inj hpure)
  obtain ⟨hspelled, hreads⟩ := reads_of_taggedText htext
  exact ⟨hspelled, (reads_of_char hopen).trans (hreads.trans (reads_of_char hclose))⟩

/-! ### Windows -/

theorem reads_of_label {label : Label}
    (h : (Grammar.label cursor).result = some (label, behind)) :
    (label.gap ∈ Spelling.gap ∧ label.identifier ∈ Spelling.identifier) ∧
      cursor.Reads label.text behind := by
  obtain ⟨gap, middle, hgap, h⟩ := result_bind_eq_some_iff.mp h
  obtain ⟨identifier, last, hidentifier, hpure⟩ := result_bind_eq_some_iff.mp h
  obtain ⟨rfl, rfl⟩ := Prod.mk.inj (Option.some.inj hpure)
  obtain ⟨hne, hspacing, hreads, _⟩ := reads_of_span1 hgap
  obtain ⟨hword, hmore⟩ := reads_of_identifier hidentifier
  exact ⟨⟨Spelling.mem_gap.mpr ⟨hne, hspacing⟩, hword⟩, hreads.trans hmore⟩

theorem reads_of_optional_label {label : Option Label}
    (h : (optional Grammar.label cursor).result = some (label, behind)) :
    (∀ l ∈ label, l.gap ∈ Spelling.gap) ∧
      (∀ word ∈ label.map Label.identifier, word ∈ Spelling.identifier) ∧
      cursor.Reads ((label.map Label.text).getD []) behind := by
  obtain ⟨hwords, hreads⟩ := reads_of_optional Label.text
    (fun label ↦ label.gap ∈ Spelling.gap ∧ label.identifier ∈ Spelling.identifier)
    reads_of_label h
  refine ⟨fun l hl ↦ (hwords l hl).1, fun word hword ↦ ?_, hreads⟩
  obtain ⟨l, hl, rfl⟩ := Option.map_eq_some_iff.mp hword
  exact (hwords l hl).2

theorem reads_of_optional_speaker {speaker : Option TaggedText}
    (h : (optional Grammar.speaker cursor).result = some (speaker, behind)) :
    (∀ name ∈ speaker, TaggedText.Spaced name) ∧
      (∀ name ∈ speaker.map TaggedText.outline, Outline.Text.WellFormed name) ∧
      cursor.Reads ((speaker.map speakerText).getD []) behind := by
  obtain ⟨hspelled, hreads⟩ := reads_of_optional speakerText TaggedText.Spelled reads_of_speaker h
  refine ⟨fun name hname ↦ (hspelled name hname).1, fun outline houtline ↦ ?_, hreads⟩
  obtain ⟨name, hname, rfl⟩ := Option.map_eq_some_iff.mp houtline
  exact (hspelled name hname).2

theorem reads_of_dialog {window : Dialog}
    (h : (Grammar.dialog cursor).result = some (window, behind)) :
    (Window.dialog window).Spelled ∧ cursor.Reads window.text behind := by
  obtain ⟨_, c₁, hopen, h⟩ := result_bind_eq_some_iff.mp h
  obtain ⟨lead, c₂, hlead, h⟩ := result_bind_eq_some_iff.mp h
  obtain ⟨keyword, c₃, hkeyword, h⟩ := result_bind_eq_some_iff.mp h
  obtain ⟨label, c₄, hlabel, h⟩ := result_bind_eq_some_iff.mp h
  obtain ⟨gap, c₅, hgap, h⟩ := result_bind_eq_some_iff.mp h
  obtain ⟨speaker, c₆, hspeaker, h⟩ := result_bind_eq_some_iff.mp h
  obtain ⟨tail, c₇, htail, h⟩ := result_bind_eq_some_iff.mp h
  obtain ⟨_, c₈, hclose, h⟩ := result_bind_eq_some_iff.mp h
  obtain ⟨body, c₉, hbody, hpure⟩ := result_bind_eq_some_iff.mp h
  obtain ⟨rfl, rfl⟩ := Prod.mk.inj (Option.some.inj hpure)
  obtain ⟨hleadMem, hleadReads⟩ := reads_of_spacing hlead
  obtain ⟨hkeywordMem, hkeywordReads⟩ := reads_of_anyCase Spelling.isLower_dlg hkeyword
  obtain ⟨hlabelGap, hidentifier, hlabelReads⟩ := reads_of_optional_label hlabel
  obtain ⟨hgapMem, hgapReads⟩ := reads_of_spacing hgap
  obtain ⟨hspaced, hname, hspeakerReads⟩ := reads_of_optional_speaker hspeaker
  obtain ⟨htailMem, htailReads⟩ := reads_of_spacing htail
  obtain ⟨hspelled, hbodyReads⟩ := reads_of_taggedText hbody
  refine ⟨⟨⟨hleadMem, hkeywordMem, hlabelGap, hgapMem, hspaced, htailMem, hspelled.1⟩,
    hidentifier, hname, hspelled.2⟩, ?_⟩
  have hheader := (reads_of_char hopen).trans (hleadReads.trans (hkeywordReads.trans
    (hlabelReads.trans (hgapReads.trans (hspeakerReads.trans htailReads)))))
  have hreads := hheader.trans ((reads_of_char hclose).trans hbodyReads)
  simpa [Dialog.text, Dialog.header, Dialog.beforeSpeaker, Dialog.beforeLabel] using hreads

theorem reads_of_selection {window : Selection}
    (h : (Grammar.selection cursor).result = some (window, behind)) :
    (Window.selection window).Spelled ∧ cursor.Reads window.text behind := by
  obtain ⟨_, c₁, hopen, h⟩ := result_bind_eq_some_iff.mp h
  obtain ⟨lead, c₂, hlead, h⟩ := result_bind_eq_some_iff.mp h
  obtain ⟨keyword, c₃, hkeyword, h⟩ := result_bind_eq_some_iff.mp h
  obtain ⟨label, c₄, hlabel, h⟩ := result_bind_eq_some_iff.mp h
  obtain ⟨tail, c₅, htail, h⟩ := result_bind_eq_some_iff.mp h
  obtain ⟨_, c₆, hclose, h⟩ := result_bind_eq_some_iff.mp h
  obtain ⟨body, c₇, hbody, hpure⟩ := result_bind_eq_some_iff.mp h
  obtain ⟨rfl, rfl⟩ := Prod.mk.inj (Option.some.inj hpure)
  obtain ⟨hleadMem, hleadReads⟩ := reads_of_spacing hlead
  obtain ⟨hkeywordMem, hkeywordReads⟩ := reads_of_anyCase Spelling.isLower_sel hkeyword
  obtain ⟨hlabelGap, hidentifier, hlabelReads⟩ := reads_of_optional_label hlabel
  obtain ⟨htailMem, htailReads⟩ := reads_of_spacing htail
  obtain ⟨hspelled, hbodyReads⟩ := reads_of_taggedText hbody
  refine ⟨⟨⟨hleadMem, hkeywordMem, hlabelGap, htailMem, hspelled.1⟩, hidentifier, hspelled.2⟩, ?_⟩
  have hheader := (reads_of_char hopen).trans (hleadReads.trans (hkeywordReads.trans
    (hlabelReads.trans htailReads)))
  have hreads := hheader.trans ((reads_of_char hclose).trans hbodyReads)
  simpa [Selection.text, Selection.header, Selection.beforeLabel] using hreads

theorem reads_of_window {window : Window}
    (h : (Grammar.window cursor).result = some (window, behind)) :
    window.Spelled ∧ cursor.Reads window.text behind := by
  rcases result_of_orElse h with h | h
  · obtain ⟨dialog, last, hdialog, hpure⟩ := result_bind_eq_some_iff.mp h
    obtain ⟨rfl, rfl⟩ := Prod.mk.inj (Option.some.inj hpure)
    exact reads_of_dialog hdialog
  · obtain ⟨selection, last, hselection, hpure⟩ := result_bind_eq_some_iff.mp h
    obtain ⟨rfl, rfl⟩ := Prod.mk.inj (Option.some.inj hpure)
    exact reads_of_selection hselection

/-! ### Sources -/

/-- A source is spelled exactly if it begins with blanks and its windows are spelled. -/
theorem spelled_document_iff {document : Document} :
    document.Spelled ↔
      document.blanks ∈ Spelling.blanks ∧ ∀ window ∈ document.windows, window.Spelled := by
  constructor
  · rintro ⟨⟨hblanks, hspaced⟩, hwords⟩
    exact ⟨hblanks, fun window hwindow ↦
      ⟨hspaced window hwindow, hwords _ (List.mem_map.mpr ⟨window, hwindow, rfl⟩)⟩⟩
  · rintro ⟨hblanks, hwindows⟩
    refine ⟨⟨hblanks, fun window hwindow ↦ (hwindows window hwindow).1⟩, ?_⟩
    intro outline houtline
    obtain ⟨window, hwindow, rfl⟩ := List.mem_map.mp houtline
    exact (hwindows window hwindow).2

theorem reads_of_document {document : Document}
    (h : (Grammar.document cursor).result = some (document, behind)) :
    document.Spelled ∧ cursor.Reads document.text behind ∧ behind.rest = [] := by
  obtain ⟨blanks, c₁, hblanks, h⟩ := result_bind_eq_some_iff.mp h
  obtain ⟨windows, c₂, hwindows, h⟩ := result_bind_eq_some_iff.mp h
  obtain ⟨_, c₃, hend, hpure⟩ := result_bind_eq_some_iff.mp h
  obtain ⟨rfl, rfl⟩ := Prod.mk.inj (Option.some.inj hpure)
  obtain ⟨hblank, hreads, _⟩ := reads_of_span hblanks
  obtain ⟨hturn, hmore⟩ := reads_of_many Window.text
    (fun window _ ↦ window.Spelled) reads_of_window hwindows
  obtain ⟨hempty, rfl⟩ := result_atEnd_eq_some_iff.mp hend
  exact ⟨spelled_document_iff.mpr ⟨Spelling.mem_blanks.mpr hblank, InTurn.forall_mem hturn⟩,
    hreads.trans hmore, hempty⟩

/-- The tree of a source is a tree of the grammar, and its text is the source. -/
theorem spelled_of_parse {source : List Char} {document : Document}
    (h : parse source = .ok document) : document.Spelled ∧ document.text = source := by
  unfold parse at h
  dsimp only at h
  split at h
  · rename_i found last hresult
    obtain rfl := Except.ok.inj h
    obtain ⟨hspelled, hreads, hempty⟩ := reads_of_document hresult
    have hsource : source = found.text ++ last.rest := hreads.1
    rw [hempty, List.append_nil] at hsource
    exact ⟨hspelled, hsource.symm⟩
  · exact absurd h (by simp)

end DialogueScript.Syntax
