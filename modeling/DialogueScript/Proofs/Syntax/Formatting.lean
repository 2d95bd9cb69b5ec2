import DialogueScript.Proofs.Syntax.Completeness
import DialogueScript.Proofs.Text.LineEndings

/-!
# Formatting edits

A source may be laid out anew in many ways. Spacing inside brackets may be replaced by other
spacing, and where it may be absent it may also be added or removed; the letters of a keyword or of
a tag id may change their case; blanks may be put in front of the first window; and a line feed may
be put anywhere into a body or the name of a speaker, except inside a tag and behind a carriage
return. `Document.Edit` says of two trees that one such edit leads from the first to the second, and
`EditedTo` says so of two sources. No place for a line feed is left out (`exists_edit_feed`).

The tree of an edited source is spelled if the tree of the source is, so that the edited source is
read too, and both have the same core (`Outline.core`), in which tag ids are in lower case, line
endings are dropped, and runs of nothing else are left out. What is true of one edit is true of any
number of them (`exists_parse_of_edits`).
-/

set_option autoImplicit false
set_option relaxedAutoImplicit false

namespace DialogueScript.Syntax

/-! ### Edits of trees -/

/-- An edit of a tag. -/
inductive Tag.Edit (tag : Tag) : Tag → Prop
  /-- Other spacing stands behind the opening bracket. -/
  | lead {lead : List Char} (h : lead ∈ Spelling.spacing) : Tag.Edit tag { tag with lead }
  /-- Letters of the id change their case. -/
  | id {id other : List Char} (hid : tag.id = some id)
      (h : other.map Char.toLower = id.map Char.toLower) :
      Tag.Edit tag { tag with id := some other }
  /-- Other spacing stands in front of a literal. -/
  | gap {before after : List Argument} {argument : Argument} {gap : List Char}
      (hargs : tag.args = before ++ argument :: after) (h : gap ∈ Spelling.gap) :
      Tag.Edit tag { tag with args := before ++ { argument with gap } :: after }
  /-- Other spacing stands in front of the closing bracket. -/
  | tail {tail : List Char} (h : tail ∈ Spelling.spacing) : Tag.Edit tag { tag with tail }

/-- An edit of a text with tags. -/
inductive TaggedText.Edit : TaggedText → TaggedText → Prop
  /-- A tag is edited. -/
  | tag (before after : List Item) {t other : Tag} (h : t.Edit other) :
      TaggedText.Edit (before ++ .tag t :: after) (before ++ .tag other :: after)
  /-- A line feed is put into a run, or at one of its ends, and not behind a carriage return. -/
  | feed (before after : List Item) {first : List Char} (second : List Char)
      (h : first.getLast? ≠ some '\r') :
      TaggedText.Edit (before ++ .run (first ++ second) :: after)
        (before ++ .run (first ++ '\n' :: second) :: after)
  /-- A line feed is put where no run is: between two tags, or between a tag and an end of the
  text. -/
  | newRun (before after : List Item) (hbefore : ∀ item ∈ before.getLast?, ¬item.outline.IsRun)
      (hafter : ∀ item ∈ after.head?, ¬item.outline.IsRun) :
      TaggedText.Edit (before ++ after) (before ++ .run ['\n'] :: after)

/-- An edit of a dialog window. -/
inductive Dialog.Edit (window : Dialog) : Dialog → Prop
  /-- Other spacing stands behind the opening bracket. -/
  | lead {lead : List Char} (h : lead ∈ Spelling.spacing) : Dialog.Edit window { window with lead }
  /-- Letters of the keyword change their case. -/
  | keyword {keyword : List Char}
      (h : keyword.map Char.toLower = window.keyword.map Char.toLower) :
      Dialog.Edit window { window with keyword }
  /-- Other spacing stands in front of the identifier. -/
  | label {label : Label} {gap : List Char} (hlabel : window.label = some label)
      (h : gap ∈ Spelling.gap) : Dialog.Edit window { window with label := some { label with gap } }
  /-- Other spacing stands in front of the speaker. -/
  | gap {gap : List Char} (h : gap ∈ Spelling.spacing) : Dialog.Edit window { window with gap }
  /-- The name of the speaker is edited. -/
  | speaker {name other : TaggedText} (hname : window.speaker = some name) (h : name.Edit other) :
      Dialog.Edit window { window with speaker := some other }
  /-- Other spacing stands in front of the closing bracket. -/
  | tail {tail : List Char} (h : tail ∈ Spelling.spacing) : Dialog.Edit window { window with tail }
  /-- The text of the window is edited. -/
  | body {body : TaggedText} (h : window.body.Edit body) : Dialog.Edit window { window with body }

/-- An edit of a selection window. -/
inductive Selection.Edit (window : Selection) : Selection → Prop
  /-- Other spacing stands behind the opening bracket. -/
  | lead {lead : List Char} (h : lead ∈ Spelling.spacing) :
      Selection.Edit window { window with lead }
  /-- Letters of the keyword change their case. -/
  | keyword {keyword : List Char}
      (h : keyword.map Char.toLower = window.keyword.map Char.toLower) :
      Selection.Edit window { window with keyword }
  /-- Other spacing stands in front of the identifier. -/
  | label {label : Label} {gap : List Char} (hlabel : window.label = some label)
      (h : gap ∈ Spelling.gap) :
      Selection.Edit window { window with label := some { label with gap } }
  /-- Other spacing stands in front of the closing bracket. -/
  | tail {tail : List Char} (h : tail ∈ Spelling.spacing) :
      Selection.Edit window { window with tail }
  /-- The text of the window is edited. -/
  | body {body : TaggedText} (h : window.body.Edit body) :
      Selection.Edit window { window with body }

/-- An edit of a window of either kind. -/
inductive Window.Edit : Window → Window → Prop
  | dialog {window other : Dialog} (h : window.Edit other) :
      Window.Edit (.dialog window) (.dialog other)
  | selection {window other : Selection} (h : window.Edit other) :
      Window.Edit (.selection window) (.selection other)

/-- An edit of a whole source. -/
inductive Document.Edit (document : Document) : Document → Prop
  /-- Other blanks stand in front of the first window. -/
  | blanks {blanks : List Char} (h : blanks ∈ Spelling.blanks) :
      Document.Edit document { document with blanks }
  /-- A window is edited. -/
  | window {before after : List Window} {window other : Window}
      (hwindows : document.windows = before ++ window :: after) (h : window.Edit other) :
      Document.Edit document { document with windows := before ++ other :: after }

/-! ### Where line feeds may be put -/

/-- A text with tags that is cut in two is cut between two pieces or inside one. -/
theorem exists_cut {items : TaggedText} {first second : List Char}
    (h : items.text = first ++ second) :
    (∃ before after, items = before ++ after ∧ TaggedText.text before = first ∧
      TaggedText.text after = second) ∨
    ∃ before item after u v, items = before ++ item :: after ∧ Item.text item = u ++ v ∧ u ≠ [] ∧
      v ≠ [] ∧ first = TaggedText.text before ++ u ∧ second = v ++ TaggedText.text after := by
  induction items generalizing first with
  | nil =>
    obtain ⟨rfl, rfl⟩ := List.append_eq_nil_iff.mp h.symm
    exact Or.inl ⟨[], [], rfl, rfl, rfl⟩
  | cons item rest ih =>
    change item.text ++ TaggedText.text rest = first ++ second at h
    rcases List.append_eq_append_iff.mp h with ⟨more, rfl, hrest⟩ | ⟨v, hitem, rfl⟩
    · rcases ih hrest with ⟨before, after, rfl, rfl, rfl⟩ |
        ⟨before, cut, after, u, v, rfl, hcut, hu, hv, rfl, rfl⟩
      · exact Or.inl ⟨item :: before, after, rfl, rfl, rfl⟩
      · exact Or.inr ⟨item :: before, cut, after, u, v, rfl, hcut, hu, hv,
          (List.append_assoc _ _ _).symm, rfl⟩
    · by_cases hfirst : first = []
      · subst hfirst
        exact Or.inl ⟨[], item :: rest, rfl, rfl, by rw [← List.nil_append v, ← hitem]; rfl⟩
      · by_cases hv : v = []
        · subst hv
          rw [List.append_nil] at hitem
          exact Or.inl ⟨[item], rest, rfl, by simp [TaggedText.text, hitem], rfl⟩
        · exact Or.inr ⟨[], item, rest, first, v, rfl, hitem, hfirst, hv, rfl, rfl⟩

/-- A line feed may be put anywhere into a text with tags, except inside a tag and behind a carriage
return: there is an edit that puts it there. -/
theorem exists_edit_feed {items : TaggedText} {first second : List Char}
    (h : items.text = first ++ second) (hlast : first.getLast? ≠ some '\r') :
    (∃ other : TaggedText, items.Edit other ∧ other.text = first ++ '\n' :: second) ∨
    ∃ before t after u v, items = before ++ Item.tag t :: after ∧ t.text = u ++ v ∧ u ≠ [] ∧
      v ≠ [] ∧ first = TaggedText.text before ++ u ∧ second = v ++ TaggedText.text after := by
  rcases exists_cut h with ⟨before, after, rfl, rfl, rfl⟩ |
    ⟨before, item, after, u, v, rfl, hitem, hu, hv, rfl, rfl⟩
  · left
    by_cases hbefore : ∀ item ∈ before.getLast?, ¬item.outline.IsRun
    · by_cases hafter : ∀ item ∈ after.head?, ¬item.outline.IsRun
      · exact ⟨_, .newRun before after hbefore hafter, by simp [TaggedText.text, Item.text]⟩
      · -- the line feed goes to the beginning of the run behind it
        push Not at hafter
        obtain ⟨item, hhead, hrun⟩ := hafter
        obtain ⟨later, rfl⟩ := List.head?_eq_some_iff.mp hhead
        cases item with
        | tag t => exact hrun.elim
        | run text =>
          exact ⟨_, @TaggedText.Edit.feed before later [] text (by simp),
            by simp [TaggedText.text, Item.text]⟩
    · -- the line feed goes to the end of the run in front of it
      push Not at hbefore
      obtain ⟨item, hitem, hrun⟩ := hbefore
      obtain ⟨earlier, rfl⟩ := List.getLast?_eq_some_iff.mp hitem
      cases item with
      | tag t => exact hrun.elim
      | run text =>
        have hend : text.getLast? ≠ some '\r' := by
          intro htext
          refine hlast ?_
          simp [TaggedText.text, Item.text, List.getLast?_append, htext]
        have hedit := TaggedText.Edit.feed earlier after [] hend
        rw [List.append_nil] at hedit
        refine ⟨earlier ++ .run (text ++ ['\n']) :: after, ?_, by simp [TaggedText.text, Item.text]⟩
        rw [List.append_assoc]
        exact hedit
  · cases item with
    | tag t => exact Or.inr ⟨before, t, after, u, v, rfl, hitem, hu, hv, rfl, rfl⟩
    | run text =>
      left
      obtain rfl : text = u ++ v := hitem
      rw [List.getLast?_append_of_ne_nil _ hu] at hlast
      exact ⟨_, .feed before after v hlast, by simp [TaggedText.text, Item.text]⟩

/-! ### Cores of outlines -/

namespace Outline

/-- A tag with its id in lower case. -/
def Tag.core (tag : Tag) : Tag :=
  ⟨tag.id.map (·.map Char.toLower), tag.literals⟩

/-- What is left of a piece of text: a tag stays, and a run stays if there is more to it than line
endings. -/
def Item.core : Item → List Item
  | .run text => if stripNewlines text = [] then [] else [.run (stripNewlines text)]
  | .tag t => [.tag t.core]

/-- What is left of a text. -/
def Text.core (items : Text) : Text :=
  items.flatMap Item.core

/-- A window with what is left of its texts. -/
def Window.core : Window → Window
  | .dialog identifier speaker body => .dialog identifier (speaker.map Text.core) body.core
  | .selection identifier body => .selection identifier body.core

/-- The windows of a script with what is left of their texts. -/
def core (outline : Outline) : Outline :=
  outline.map Window.core

end Outline

/-! ### Letters -/

theorem isAlpha_toLower (c : Char) : c.toLower.isAlpha = c.isAlpha := by
  rw [Bool.eq_iff_iff]
  simp only [Char.isAlpha, Char.isUpper, Char.isLower, Bool.or_eq_true, Bool.and_eq_true,
    decide_eq_true_eq, ge_iff_le, UInt32.le_iff_toNat_le, Char.toNat_val, Spelling.toNat_toLower,
    Char.reduceToNat]
  split_ifs <;> omega

theorem isIdentifierTail_toLower (c : Char) : isIdentifierTail c.toLower = isIdentifierTail c := by
  have hunderscore : c.toLower = '_' ↔ c = '_' := by
    rw [← Char.toNat_inj, ← Char.toNat_inj, Spelling.toNat_toLower]
    split_ifs with hcapital
    · exact iff_of_false (by simp; omega) (by simp; omega)
    · rfl
  have hdigit : c.toLower.isDigit = c.isDigit := by
    rw [Bool.eq_iff_iff]
    simp only [Char.isDigit, Bool.and_eq_true, decide_eq_true_eq, ge_iff_le,
      UInt32.le_iff_toNat_le, Char.toNat_val, Spelling.toNat_toLower, Char.reduceToNat]
    split_ifs <;> omega
  rw [Bool.eq_iff_iff]
  simp only [isIdentifierTail, Char.isAlphanum, isAlpha_toLower, hdigit, Bool.or_eq_true,
    beq_iff_eq, hunderscore]

/-- A text is an id exactly if it is one in lower case. -/
theorem map_toLower_mem_tagId {text : List Char} :
    text.map Char.toLower ∈ Spelling.tagId ↔ text ∈ Spelling.tagId := by
  rw [Spelling.mem_tagId, Spelling.mem_tagId]
  constructor
  · rintro ⟨_, _, hmap, hhead, htail⟩
    obtain ⟨c, rest, rfl, rfl, rfl⟩ := List.map_eq_cons_iff.mp hmap
    rw [isAlpha_toLower] at hhead
    refine ⟨c, rest, rfl, hhead, fun d hd ↦ ?_⟩
    rw [← isIdentifierTail_toLower]
    exact htail _ (List.mem_map_of_mem hd)
  · rintro ⟨c, rest, rfl, hhead, htail⟩
    refine ⟨_, _, rfl, by rwa [isAlpha_toLower], List.forall_mem_map.mpr fun d hd ↦ ?_⟩
    rw [isIdentifierTail_toLower]
    exact htail d hd

/-! ### Edited trees -/

/-- An edited tag is a tag of the grammar, and its core is that of the tag. -/
theorem Tag.Edit.spelled {tag other : Tag} (h : tag.Edit other) (hspelled : tag.Spelled) :
    other.Spelled ∧ other.outline.core = tag.outline.core := by
  obtain ⟨hspaced, hwell⟩ := hspelled
  cases h with
  | lead hlead => exact ⟨⟨⟨hlead, hspaced.args, hspaced.tail⟩, hwell⟩, rfl⟩
  | tail htail => exact ⟨⟨⟨hspaced.lead, hspaced.args, htail⟩, hwell⟩, rfl⟩
  | @id id other hid hcase =>
    refine ⟨⟨⟨hspaced.lead, hspaced.args, hspaced.tail⟩, ⟨?_, hwell.literals, ?_⟩⟩, ?_⟩
    · rintro _ ⟨⟩
      rw [← map_toLower_mem_tagId, hcase, map_toLower_mem_tagId]
      exact hwell.id id hid
    · simp [Tag.outline]
    · simp only [Tag.outline, Outline.Tag.core, hid, Option.map_some, hcase]
  | @gap before after argument gap hargs hgap =>
    have houtline : Tag.outline { tag with args := before ++ { argument with gap } :: after } =
        tag.outline := by
      simp [Tag.outline, hargs]
    have hgaps := hspaced.args
    rw [hargs] at hgaps
    obtain ⟨hbefore, hafter⟩ := List.forall_mem_append.mp hgaps
    refine ⟨⟨⟨hspaced.lead, ?_, hspaced.tail⟩, houtline ▸ hwell⟩, by rw [houtline]⟩
    exact List.forall_mem_append.mpr
      ⟨hbefore, List.forall_mem_cons.mpr ⟨hgap, (List.forall_mem_cons.mp hafter).2⟩⟩

theorem core_append_cons (before after : List Item) (item : Item) :
    Outline.Text.core (TaggedText.outline (before ++ item :: after)) =
      Outline.Text.core (TaggedText.outline before) ++
        (item.outline.core ++ Outline.Text.core (TaggedText.outline after)) := by
  simp [Outline.Text.core, TaggedText.outline]

/-- Assumes: a text of the grammar. A piece of it may be replaced by another piece that is a run if
the first one is. -/
theorem spelled_replace {before after : List Item} {item other : Item}
    (hspelled : TaggedText.Spelled (before ++ item :: after)) (hother : other.Spelled)
    (hrun : other.outline.IsRun ↔ item.outline.IsRun) :
    TaggedText.Spelled (before ++ other :: after) := by
  obtain ⟨hspaced, hwell⟩ := hspelled
  obtain ⟨hbefore, hitem⟩ := List.forall_mem_append.mp hspaced
  obtain ⟨-, hafter⟩ := List.forall_mem_cons.mp hitem
  have hruns := Outline.isChain_runs_iff.mp hwell.runs
  have heach := hwell.each
  simp only [TaggedText.outline, List.map_append, List.map_cons, List.forall_mem_append,
    List.forall_mem_cons] at heach hruns
  refine ⟨?_, ?_, Outline.isChain_runs_iff.mpr ?_⟩
  · exact List.forall_mem_append.mpr ⟨hbefore, List.forall_mem_cons.mpr ⟨hother.1, hafter⟩⟩
  · simp only [TaggedText.outline, List.map_append, List.map_cons, List.forall_mem_append,
      List.forall_mem_cons]
    exact ⟨heach.1, hother.2, heach.2.2⟩
  · simp only [TaggedText.outline, List.map_append, List.map_cons, hrun]
    exact hruns

/-- An edited text is a text of the grammar, and its core is that of the text. -/
theorem TaggedText.Edit.spelled {items other : TaggedText} (h : items.Edit other)
    (hspelled : items.Spelled) :
    other.Spelled ∧ Outline.Text.core other.outline = Outline.Text.core items.outline := by
  cases h with
  | @tag before after t other ht =>
    have hitem : Item.Spelled (.tag t) := spelled_of_mem hspelled (by simp)
    obtain ⟨hother, hcore⟩ := ht.spelled hitem
    refine ⟨spelled_replace hspelled hother Iff.rfl, ?_⟩
    rw [core_append_cons, core_append_cons]
    simp only [Item.outline, Outline.Item.core, hcore]
  | @feed before after first second hlast =>
    have hitem : Item.Spelled (.run (first ++ second)) := spelled_of_mem hspelled (by simp)
    have hrun : first ++ '\n' :: second ∈ Spelling.run := by
      obtain ⟨-, hplain⟩ := Spelling.mem_run.mp hitem.2
      obtain ⟨hfirst, hsecond⟩ := List.forall_mem_append.mp hplain
      exact Spelling.mem_run.mpr ⟨by simp,
        List.forall_mem_append.mpr ⟨hfirst, List.forall_mem_cons.mpr ⟨rfl, hsecond⟩⟩⟩
    refine ⟨spelled_replace hspelled ⟨trivial, hrun⟩ Iff.rfl, ?_⟩
    rw [core_append_cons, core_append_cons]
    simp only [Item.outline, Outline.Item.core, stripNewlines_insert hlast]
  | newRun before after hbefore hafter =>
    obtain ⟨hspaced, heach, hruns⟩ := hspelled
    obtain ⟨hspacedBefore, hspacedAfter⟩ := List.forall_mem_append.mp hspaced
    rw [TaggedText.outline, List.map_append] at heach hruns
    obtain ⟨heachBefore, heachAfter⟩ := List.forall_mem_append.mp heach
    obtain ⟨hrunsBefore, hrunsAfter, -⟩ := List.isChain_append.mp hruns
    have hrun : ['\n'] ∈ Spelling.run := Spelling.mem_run.mpr ⟨by simp, by simp; rfl⟩
    refine ⟨⟨?_, ?_⟩, ?_⟩
    · exact List.forall_mem_append.mpr
        ⟨hspacedBefore, List.forall_mem_cons.mpr ⟨trivial, hspacedAfter⟩⟩
    · rw [TaggedText.outline, List.map_append, List.map_cons]
      refine ⟨List.forall_mem_append.mpr ⟨heachBefore, List.forall_mem_cons.mpr ⟨hrun, heachAfter⟩⟩,
        List.isChain_append.mpr ⟨hrunsBefore, List.isChain_cons.mpr ⟨?_, hrunsAfter⟩, ?_⟩⟩
      · rintro item hitem ⟨-, hisRun⟩
        rw [List.head?_map, Option.mem_map] at hitem
        obtain ⟨first, hfirst, rfl⟩ := hitem
        exact hafter first hfirst hisRun
      · rintro item hitem _ - ⟨hisRun, -⟩
        rw [List.getLast?_map, Option.mem_map] at hitem
        obtain ⟨last, hlast, rfl⟩ := hitem
        exact hbefore last hlast hisRun
    · have hnothing : (Item.run ['\n']).outline.core = [] := rfl
      rw [core_append_cons, hnothing, List.nil_append]
      simp [Outline.Text.core, TaggedText.outline]

theorem mem_anyCase_congr {word text other : List Char} (hword : ∀ c ∈ word, c.isLower = true)
    (htext : text ∈ Spelling.anyCase word) (h : other.map Char.toLower = text.map Char.toLower) :
    other ∈ Spelling.anyCase word := by
  rw [Spelling.mem_anyCase hword] at htext ⊢
  rw [h, htext]

/-- Assumes: a window that holds spacing where spacing may stand, with the outline of a window of
the grammar. It is a window of the grammar with the same core. -/
theorem spelled_of_outline_eq {window other : Window} (hspelled : window.Spelled)
    (hspaced : other.Spaced) (houtline : other.outline = window.outline) :
    other.Spelled ∧ other.outline.core = window.outline.core :=
  ⟨⟨hspaced, houtline ▸ hspelled.2⟩, congrArg Outline.Window.core houtline⟩

/-- An edited dialog window is a window of the grammar, and its core is that of the window. -/
theorem Dialog.Edit.spelled {window other : Dialog} (h : window.Edit other)
    (hspelled : (Window.dialog window).Spelled) :
    (Window.dialog other).Spelled ∧
      (Window.dialog other).outline.core = (Window.dialog window).outline.core := by
  have hspaced : window.Spaced := hspelled.1
  obtain ⟨hword, hname, hwell⟩ := hspelled.2
  cases h with
  | lead h => exact spelled_of_outline_eq hspelled { hspaced with lead := h } rfl
  | gap h => exact spelled_of_outline_eq hspelled { hspaced with gap := h } rfl
  | tail h => exact spelled_of_outline_eq hspelled { hspaced with tail := h } rfl
  | keyword h =>
    have hother := mem_anyCase_congr Spelling.isLower_dlg hspaced.keyword h
    exact spelled_of_outline_eq hspelled { hspaced with keyword := hother } rfl
  | @label label gap hsome h =>
    refine spelled_of_outline_eq hspelled { hspaced with label := ?_ } ?_
    · rintro _ ⟨⟩
      exact h
    · simp [Window.outline, hsome]
  | @speaker name other hsome h =>
    have hold : name.Spelled := ⟨hspaced.speaker name hsome, hname _ (by rw [hsome]; rfl)⟩
    obtain ⟨⟨hspacedName, hwellName⟩, hcore⟩ := h.spelled hold
    refine ⟨⟨{ hspaced with speaker := ?_ }, hword, ?_, hwell⟩, ?_⟩
    · rintro _ ⟨⟩
      exact hspacedName
    · rintro _ ⟨⟩
      exact hwellName
    · simp only [Window.outline, Outline.Window.core, hsome, Option.map_some, hcore]
  | body h =>
    obtain ⟨⟨hspacedBody, hwellBody⟩, hcore⟩ := h.spelled ⟨hspaced.body, hwell⟩
    refine ⟨⟨{ hspaced with body := hspacedBody }, hword, hname, hwellBody⟩, ?_⟩
    simp only [Window.outline, Outline.Window.core, hcore]

/-- An edited selection window is a window of the grammar, and its core is that of the window. -/
theorem Selection.Edit.spelled {window other : Selection} (h : window.Edit other)
    (hspelled : (Window.selection window).Spelled) :
    (Window.selection other).Spelled ∧
      (Window.selection other).outline.core = (Window.selection window).outline.core := by
  have hspaced : window.Spaced := hspelled.1
  obtain ⟨hword, hwell⟩ := hspelled.2
  cases h with
  | lead h => exact spelled_of_outline_eq hspelled { hspaced with lead := h } rfl
  | tail h => exact spelled_of_outline_eq hspelled { hspaced with tail := h } rfl
  | keyword h =>
    have hother := mem_anyCase_congr Spelling.isLower_sel hspaced.keyword h
    exact spelled_of_outline_eq hspelled { hspaced with keyword := hother } rfl
  | @label label gap hsome h =>
    refine spelled_of_outline_eq hspelled { hspaced with label := ?_ } ?_
    · rintro _ ⟨⟩
      exact h
    · simp [Window.outline, hsome]
  | body h =>
    obtain ⟨⟨hspacedBody, hwellBody⟩, hcore⟩ := h.spelled ⟨hspaced.body, hwell⟩
    refine ⟨⟨{ hspaced with body := hspacedBody }, hword, hwellBody⟩, ?_⟩
    simp only [Window.outline, Outline.Window.core, hcore]

/-- An edited window is a window of the grammar, and its core is that of the window. -/
theorem Window.Edit.spelled {window other : Window} (h : window.Edit other)
    (hspelled : window.Spelled) :
    other.Spelled ∧ other.outline.core = window.outline.core := by
  cases h with
  | dialog h => exact h.spelled hspelled
  | selection h => exact h.spelled hspelled

/-- An edited tree is a tree of the grammar, and its core is that of the tree. -/
theorem Document.Edit.spelled {document other : Document} (h : document.Edit other)
    (hspelled : document.Spelled) :
    other.Spelled ∧ other.outline.core = document.outline.core := by
  rw [spelled_document_iff] at hspelled ⊢
  cases h with
  | blanks hblanks => exact ⟨⟨hblanks, hspelled.2⟩, rfl⟩
  | @window before after window other hwindows hedit =>
    obtain ⟨hblanks, hall⟩ := hspelled
    rw [hwindows] at hall
    obtain ⟨hbefore, hrest⟩ := List.forall_mem_append.mp hall
    obtain ⟨hwindow, hafter⟩ := List.forall_mem_cons.mp hrest
    obtain ⟨hother, hcore⟩ := hedit.spelled hwindow
    refine ⟨⟨hblanks, List.forall_mem_append.mpr
      ⟨hbefore, List.forall_mem_cons.mpr ⟨hother, hafter⟩⟩⟩, ?_⟩
    simp [Document.outline, Outline.core, hwindows, hcore]

/-! ### Edited sources -/

/-- One edit of the tree of a source leads to another source. -/
def EditedTo (source edited : List Char) : Prop :=
  ∃ document other, parse source = .ok document ∧ document.Edit other ∧ other.text = edited

/-- Assumes: a source is read, and edited any number of times. What comes out is read too, and the
core of its tree is that of the tree of the source. -/
theorem exists_parse_of_edits {source edited : List Char} {document : Document}
    (hparse : parse source = .ok document) (hedits : Relation.ReflTransGen EditedTo source edited) :
    ∃ other, parse edited = .ok other ∧ other.outline.core = document.outline.core := by
  induction hedits with
  | refl => exact ⟨document, hparse, rfl⟩
  | tail _ hedit ih =>
    obtain ⟨last, hlast, hcore⟩ := ih
    obtain ⟨before, other, hbefore, hone, rfl⟩ := hedit
    obtain rfl : before = last := Except.ok.inj (hbefore.symm.trans hlast)
    obtain ⟨hspelled, hsame⟩ := hone.spelled (spelled_of_parse hlast).1
    exact ⟨other.settle, parse_text hspelled, by rw [outline_settle, hsame, hcore]⟩

end DialogueScript.Syntax
