import DialogueScript.Proofs.Syntax.Outline

/-!
# Scripts are the spellings of outlines

The language of scripts is the union of the spellings of all well-formed outlines
(`mem_script_iff`). From the construct that it is about each theorem takes apart a text of the
language into the outline of the construct, and puts the text together from a spelling.

The only construct whose outline is not read off its definition is a text with tags, since the
language has plain characters where the outline has maximal runs. `Outline.Text.consPlain` puts a
plain character in front of a text, into the run at its beginning if there is one.
-/

set_option autoImplicit false
set_option relaxedAutoImplicit false

namespace DialogueScript.Syntax

open scoped Computability

/-- Assumes: a language is the union of the spellings of good things. Its star is the union of the
spellings of lists of good things. -/
theorem mem_kstar_iff_exists_prod {α : Type} {language : Language Char} {good : α → Prop}
    {spellings : α → Language Char}
    (hlanguage : ∀ word, word ∈ language ↔ ∃ thing, good thing ∧ word ∈ spellings thing)
    (word : List Char) :
    word ∈ language∗ ↔
      ∃ things : List α, (∀ thing ∈ things, good thing) ∧ word ∈ (things.map spellings).prod := by
  constructor
  · rintro ⟨pieces, rfl, hpieces⟩
    induction pieces with
    | nil => exact ⟨[], by simp, Language.nil_mem_one⟩
    | cons piece rest ih =>
      obtain ⟨thing, hgood, hpiece⟩ := (hlanguage piece).mp (hpieces piece (by simp))
      obtain ⟨things, hthings, hrest⟩ := ih fun other hother ↦ hpieces other (by simp [hother])
      exact ⟨thing :: things, by simpa using ⟨hgood, hthings⟩,
        Language.append_mem_mul hpiece hrest⟩
  · rintro ⟨things, hgood, hword⟩
    induction things generalizing word with
    | nil =>
      rw [(Language.mem_one word).mp hword]
      exact Language.nil_mem_kstar language
    | cons thing rest ih =>
      obtain ⟨piece, hpiece, later, hlater, rfl⟩ := Language.mem_mul.mp hword
      exact Spelling.append_mem_kstar
        ((hlanguage piece).mpr ⟨thing, hgood thing (by simp), hpiece⟩)
        (ih later (fun other hother ↦ hgood other (by simp [hother])) hlater)

/-! ### Tags -/

/-- The literals of a tag with the spacing in front of each. -/
theorem mem_literals_iff (word : List Char) :
    word ∈ (Spelling.gap * Spelling.literal)∗ ↔
      ∃ literals : List (List Char), (∀ literal ∈ literals, literal ∈ Spelling.literal) ∧
        word ∈ (literals.map fun literal ↦ Spelling.gap * {literal}).prod := by
  refine mem_kstar_iff_exists_prod (fun piece ↦ ?_) word
  simp only [Language.mem_mul, Spelling.mem_singleton, exists_eq_left]
  constructor
  · rintro ⟨gap, hgap, literal, hliteral, rfl⟩
    exact ⟨literal, hliteral, gap, hgap, rfl⟩
  · rintro ⟨literal, hliteral, gap, hgap, rfl⟩
    exact ⟨gap, hgap, literal, hliteral, rfl⟩

/-- The spellings of a tag without an id and literals. -/
theorem spellings_tag_none :
    (⟨none, []⟩ : Outline.Tag).spellings = {['<']} * Spelling.spacing * {['>']} := by
  change {['<']} * Spelling.spacing * 1 * 1 * Spelling.spacing * {['>']} = _
  rw [mul_one, mul_one, mul_assoc {['<']}, Spelling.spacing, kstar_mul_kstar]

theorem mem_tag_iff (word : List Char) :
    word ∈ Spelling.tag ↔ ∃ tag : Outline.Tag, tag.WellFormed ∧ word ∈ tag.spellings := by
  rw [Spelling.tag, Language.mem_add, ← spellings_tag_none]
  constructor
  · rintro (hword | hword)
    · exact ⟨⟨none, []⟩, ⟨by simp, by simp, fun _ ↦ rfl⟩, hword⟩
    · simp only [mul_assoc, Language.mem_mul, mem_literals_iff] at hword
      obtain ⟨opening, hopening, _, ⟨lead, hlead, _, ⟨id, hid, _,
        ⟨args, ⟨literals, hliterals, hargs⟩, close, hclose, rfl⟩, rfl⟩, rfl⟩, rfl⟩ := hword
      refine ⟨⟨some id, literals⟩, ⟨by simpa using hid, hliterals, by simp⟩, ?_⟩
      simp only [Outline.Tag.spellings, mul_assoc, Language.mem_mul]
      exact ⟨opening, hopening, _, ⟨lead, hlead, _, ⟨id, rfl, _, ⟨args, hargs, close, hclose, rfl⟩,
        rfl⟩, rfl⟩, rfl⟩
  · rintro ⟨⟨_ | id, literals⟩, htag, hword⟩
    · obtain rfl : literals = [] := htag.literals_eq_nil rfl
      exact Or.inl hword
    · refine Or.inr ?_
      simp only [Outline.Tag.spellings, mul_assoc, Language.mem_mul] at hword
      obtain ⟨opening, hopening, _, ⟨lead, hlead, _, ⟨word, hid, _, ⟨args, hargs, close, hclose,
        rfl⟩, rfl⟩, rfl⟩, rfl⟩ := hword
      simp only [mul_assoc, Language.mem_mul, mem_literals_iff]
      have htagId : word ∈ Spelling.tagId := htag.id word (congrArg some hid.symm)
      exact ⟨opening, hopening, _, ⟨lead, hlead, _, ⟨word, htagId, _, ⟨args,
        ⟨literals, htag.literals, hargs⟩, close, hclose, rfl⟩, rfl⟩, rfl⟩, rfl⟩

/-! ### Texts with tags -/

/-- A text with a plain character in front of it, in the run at its beginning if there is one. -/
def Outline.Text.consPlain (c : Char) : Outline.Text → Outline.Text
  | .run text :: rest => .run (c :: text) :: rest
  | items => .run [c] :: items

theorem wellFormed_consPlain {c : Char} {items : Outline.Text} (hc : isPlain c = true)
    (hitems : items.WellFormed) : (items.consPlain c).WellFormed := by
  cases items with
  | nil =>
    refine ⟨?_, List.IsChain.singleton _⟩
    simpa [Outline.Text.consPlain, Outline.Item.WellFormed, Spelling.mem_run] using hc
  | cons first rest =>
    cases first with
    | run text =>
      have hrun := Spelling.mem_run.mp (hitems.each (.run text) (by simp))
      refine ⟨?_, List.isChain_cons.mpr (List.isChain_cons.mp hitems.runs)⟩
      intro item hitem
      rcases List.mem_cons.mp hitem with rfl | hrest
      · exact Spelling.mem_run.mpr ⟨by simp, by simpa using ⟨hc, hrun.2⟩⟩
      · exact hitems.each item (by simp [hrest])
    | tag t =>
      refine ⟨?_, List.isChain_cons_cons.mpr ⟨fun h ↦ h.2, hitems.runs⟩⟩
      intro item hitem
      rcases List.mem_cons.mp hitem with rfl | hrest
      · exact Spelling.mem_run.mpr ⟨by simp, by simpa using hc⟩
      · exact hitems.each item hrest

theorem cons_mem_spellings_consPlain (c : Char) {items : Outline.Text} {word : List Char}
    (hword : word ∈ items.spellings) : c :: word ∈ (items.consPlain c).spellings := by
  cases items with
  | nil => exact Language.append_mem_mul (Spelling.self_mem_singleton [c]) hword
  | cons first rest =>
    cases first with
    | run text =>
      obtain ⟨_, rfl, later, hlater, rfl⟩ := Language.mem_mul.mp hword
      exact Language.append_mem_mul (Spelling.self_mem_singleton (c :: _)) hlater
    | tag t => exact Language.append_mem_mul (Spelling.self_mem_singleton [c]) hword

/-- A piece of a text is a text with tags of its own. -/
theorem spellings_item_le {item : Outline.Item} (hitem : item.WellFormed) {word : List Char}
    (hword : word ∈ item.spellings) : word ∈ Spelling.taggedText := by
  cases item with
  | run text =>
    obtain rfl : word = text := hword
    have hplain : word ∈ (Spelling.oneOf isPlain)∗ :=
      Spelling.mem_kstar_oneOf.mpr (Spelling.mem_run.mp hitem).2
    exact kstar_mono (show Spelling.oneOf isPlain ≤ Spelling.oneOf isPlain + Spelling.tag from
      le_sup_left) hplain
  | tag t =>
    have htag : word ∈ Spelling.tag := (mem_tag_iff word).mpr ⟨t, hitem, hword⟩
    exact (le_kstar : _ ≤ Spelling.taggedText) (Or.inr htag)

theorem mem_taggedText_iff (word : List Char) :
    word ∈ Spelling.taggedText ↔
      ∃ items : Outline.Text, items.WellFormed ∧ word ∈ items.spellings := by
  constructor
  · rintro ⟨pieces, rfl, hpieces⟩
    induction pieces with
    | nil => exact ⟨[], ⟨by simp, List.IsChain.nil⟩, Language.nil_mem_one⟩
    | cons piece rest ih =>
      obtain ⟨items, hitems, hrest⟩ := ih fun other hother ↦ hpieces other (by simp [hother])
      rcases hpieces piece (by simp) with ⟨c, hc, rfl⟩ | htag
      · exact ⟨items.consPlain c, wellFormed_consPlain hc hitems,
          cons_mem_spellings_consPlain c hrest⟩
      · obtain ⟨t, ht, hpiece⟩ := (mem_tag_iff piece).mp htag
        refine ⟨.tag t :: items, ⟨?_, ?_⟩, Language.append_mem_mul hpiece hrest⟩
        · simpa using ⟨ht, hitems.each⟩
        · exact List.isChain_cons.mpr ⟨fun _ _ h ↦ h.1, hitems.runs⟩
  · rintro ⟨items, hitems, hword⟩
    have heach := hitems.each
    clear hitems
    induction items generalizing word with
    | nil =>
      rw [(Language.mem_one word).mp hword]
      exact Language.nil_mem_kstar _
    | cons item rest ih =>
      obtain ⟨first, hfirst, later, hlater, rfl⟩ := Language.mem_mul.mp hword
      have hboth := Language.append_mem_mul (spellings_item_le (heach item (by simp)) hfirst)
        (ih later hlater fun other hother ↦ heach other (by simp [hother]))
      rwa [Spelling.taggedText, kstar_mul_kstar] at hboth

/-! ### Windows and scripts -/

/-- An identifier with the spacing in front of it, or its absence. -/
theorem mem_label_iff (word : List Char) :
    word ∈ 1 + Spelling.gap * Spelling.identifier ↔
      ∃ identifier : Option (List Char), (∀ i ∈ identifier, i ∈ Spelling.identifier) ∧
        word ∈ Outline.labelSpellings identifier := by
  rw [Spelling.mem_one_add]
  constructor
  · rintro (rfl | hword)
    · exact ⟨none, by simp, Language.nil_mem_one⟩
    · obtain ⟨gap, hgap, identifier, hidentifier, rfl⟩ := Language.mem_mul.mp hword
      exact ⟨some identifier, by simpa using hidentifier,
        Language.append_mem_mul hgap (Spelling.self_mem_singleton identifier)⟩
  · rintro ⟨_ | identifier, hidentifier, hword⟩
    · exact Or.inl hword
    · obtain ⟨gap, hgap, _, rfl, rfl⟩ := Language.mem_mul.mp hword
      exact Or.inr (Language.append_mem_mul hgap (hidentifier _ rfl))

/-- A speaker in its brackets, or its absence. -/
theorem mem_speaker_iff (word : List Char) :
    word ∈ 1 + Spelling.speaker ↔
      ∃ speaker : Option Outline.Text, (∀ name ∈ speaker, Outline.Text.WellFormed name) ∧
        word ∈ Outline.speakerSpellings speaker := by
  rw [Spelling.mem_one_add]
  constructor
  · rintro (rfl | hword)
    · exact ⟨none, by simp, Language.nil_mem_one⟩
    · obtain ⟨front, hfront, close, hclose, rfl⟩ := Language.mem_mul.mp hword
      obtain ⟨opening, hopening, text, htext, rfl⟩ := Language.mem_mul.mp hfront
      obtain ⟨name, hname, hspelled⟩ := (mem_taggedText_iff text).mp htext
      exact ⟨some name, by simpa using hname,
        Language.append_mem_mul (Language.append_mem_mul hopening hspelled) hclose⟩
  · rintro ⟨_ | name, hname, hword⟩
    · exact Or.inl hword
    · obtain ⟨front, hfront, close, hclose, rfl⟩ := Language.mem_mul.mp hword
      obtain ⟨opening, hopening, text, htext, rfl⟩ := Language.mem_mul.mp hfront
      have hmem := (mem_taggedText_iff text).mpr ⟨name, hname name rfl, htext⟩
      exact Or.inr (Language.append_mem_mul (Language.append_mem_mul hopening hmem) hclose)

/-- A well-formed text is spelled by texts of the language. -/
theorem spellings_text_le {items : Outline.Text} (hitems : items.WellFormed) :
    items.spellings ≤ Spelling.taggedText :=
  fun word hword ↦ (mem_taggedText_iff word).mpr ⟨items, hitems, hword⟩

/-- A well-formed window is spelled by windows of the language. -/
theorem spellings_window_le {window : Outline.Window} (hwindow : window.WellFormed) :
    window.spellings ≤ Spelling.window := by
  rw [Spelling.window, add_mul]
  cases window with
  | dialog identifier speaker body =>
    obtain ⟨hidentifier, hspeaker, hbody⟩ := hwindow
    have hlabel : Outline.labelSpellings identifier ≤ 1 + Spelling.gap * Spelling.identifier :=
      fun word hword ↦ (mem_label_iff word).mpr ⟨identifier, hidentifier, hword⟩
    have hname : Outline.speakerSpellings speaker ≤ 1 + Spelling.speaker :=
      fun word hword ↦ (mem_speaker_iff word).mpr ⟨speaker, hspeaker, hword⟩
    have htext := spellings_text_le hbody
    refine le_trans ?_ le_sup_left
    rw [Outline.Window.spellings, Spelling.dialogHeader]
    gcongr
  | selection identifier body =>
    obtain ⟨hidentifier, hbody⟩ := hwindow
    have hlabel : Outline.labelSpellings identifier ≤ 1 + Spelling.gap * Spelling.identifier :=
      fun word hword ↦ (mem_label_iff word).mpr ⟨identifier, hidentifier, hword⟩
    have htext := spellings_text_le hbody
    refine le_trans ?_ le_sup_right
    rw [Outline.Window.spellings, Spelling.selectionHeader]
    gcongr

theorem mem_window_iff (word : List Char) :
    word ∈ Spelling.window ↔
      ∃ window : Outline.Window, window.WellFormed ∧ word ∈ window.spellings := by
  constructor
  · intro hword
    rw [Spelling.window, add_mul, Spelling.dialogHeader, Spelling.selectionHeader,
      Language.mem_add] at hword
    simp only [mul_assoc, Language.mem_mul, mem_label_iff, mem_speaker_iff,
      mem_taggedText_iff] at hword
    rcases hword with hword | hword
    · obtain ⟨opening, hopening, _, ⟨lead, hlead, _, ⟨keyword, hkeyword, _, ⟨label, ⟨identifier,
        hidentifier, hlabel⟩, _, ⟨gap, hgap, _, ⟨name, ⟨speaker, hspeaker, hname⟩, _, ⟨tail, htail,
        _, ⟨close, hclose, text, ⟨body, hbody, htext⟩, rfl⟩, rfl⟩, rfl⟩, rfl⟩, rfl⟩, rfl⟩, rfl⟩,
        rfl⟩ := hword
      refine ⟨.dialog identifier speaker body, ⟨hidentifier, hspeaker, hbody⟩, ?_⟩
      simp only [Outline.Window.spellings, mul_assoc, Language.mem_mul]
      exact ⟨opening, hopening, _, ⟨lead, hlead, _, ⟨keyword, hkeyword, _, ⟨label, hlabel, _, ⟨gap,
        hgap, _, ⟨name, hname, _, ⟨tail, htail, _, ⟨close, hclose, text, htext, rfl⟩, rfl⟩, rfl⟩,
        rfl⟩, rfl⟩, rfl⟩, rfl⟩, rfl⟩
    · obtain ⟨opening, hopening, _, ⟨lead, hlead, _, ⟨keyword, hkeyword, _, ⟨label, ⟨identifier,
        hidentifier, hlabel⟩, _, ⟨tail, htail, _, ⟨close, hclose, text, ⟨body, hbody, htext⟩, rfl⟩,
        rfl⟩, rfl⟩, rfl⟩, rfl⟩, rfl⟩ := hword
      refine ⟨.selection identifier body, ⟨hidentifier, hbody⟩, ?_⟩
      simp only [Outline.Window.spellings, mul_assoc, Language.mem_mul]
      exact ⟨opening, hopening, _, ⟨lead, hlead, _, ⟨keyword, hkeyword, _, ⟨label, hlabel, _, ⟨tail,
        htail, _, ⟨close, hclose, text, htext, rfl⟩, rfl⟩, rfl⟩, rfl⟩, rfl⟩, rfl⟩
  · rintro ⟨window, hwindow, hword⟩
    exact spellings_window_le hwindow hword

/-- The scripts of the language are the spellings of well-formed outlines. -/
theorem mem_script_iff {word : List Char} :
    word ∈ Spelling.script ↔
      ∃ outline : Outline, outline.WellFormed ∧ word ∈ outline.spellings := by
  simp only [Spelling.script, Outline.spellings, Language.mem_mul,
    mem_kstar_iff_exists_prod mem_window_iff]
  constructor
  · rintro ⟨blanks, hblanks, rest, ⟨windows, hwindows, hrest⟩, rfl⟩
    exact ⟨windows, hwindows, blanks, hblanks, rest, hrest, rfl⟩
  · rintro ⟨outline, hwindows, blanks, hblanks, rest, hrest, rfl⟩
    exact ⟨blanks, hblanks, rest, ⟨outline, hwindows, hrest⟩, rfl⟩

end DialogueScript.Syntax
