import DialogueScript.Proofs.Compile.Canonical
import DialogueScript.Proofs.Syntax.Formatting

/-!
# Compiling edited sources

What an outline means is what its core means (`means_core_iff`). A tag means something by its
letter, in either case; a run means its text without line endings, and nothing if none of it is
left. So what is left out of the core means nothing, and formatting edits, which keep the core, keep
the script (`compile_formatting`).
-/

set_option autoImplicit false
set_option relaxedAutoImplicit false

namespace DialogueScript

open Syntax

/-! ### Tags -/

/-- Assumes: a lower-case letter. It is the id of a tag in either case exactly if it is the id of
the tag in lower case. -/
theorem hasLetter_iff {tag : Outline.Tag} {letter : Char} (hletter : letter.isLower = true) :
    tag.HasLetter letter ↔ tag.id.map (·.map Char.toLower) = some [letter] := by
  unfold Outline.Tag.HasLetter
  cases tag.id with
  | none => simp
  | some id =>
    simp only [Option.some_inj, Option.map_some, List.map_eq_singleton_iff,
      Spelling.toLower_eq_iff hletter]
    constructor
    · rintro (rfl | rfl)
      · exact ⟨_, rfl, Or.inl rfl⟩
      · exact ⟨_, rfl, Or.inr rfl⟩
    · rintro ⟨c, rfl, rfl | rfl⟩
      · exact Or.inl rfl
      · exact Or.inr rfl

theorem hasLetter_core_iff {tag : Outline.Tag} {letter : Char} (hletter : letter.isLower = true) :
    tag.core.HasLetter letter ↔ tag.HasLetter letter := by
  rw [hasLetter_iff hletter, hasLetter_iff hletter]
  simp [Outline.Tag.core, Function.comp_def]

theorem tag_means_core_iff {tag : Outline.Tag} {mark : Option Token} :
    tag.core.Means mark ↔ tag.Means mark := by
  constructor
  · intro h
    cases h with
    | call hletter hvalues => exact .call ((hasLetter_core_iff rfl).mp hletter) hvalues
    | newLine hletter => exact .newLine ((hasLetter_core_iff rfl).mp hletter)
    | endLine hletter => exact .endLine ((hasLetter_core_iff rfl).mp hletter)
  · intro h
    cases h with
    | call hletter hvalues => exact .call ((hasLetter_core_iff rfl).mpr hletter) hvalues
    | newLine hletter => exact .newLine ((hasLetter_core_iff rfl).mpr hletter)
    | endLine hletter => exact .endLine ((hasLetter_core_iff rfl).mpr hletter)

/-! ### Texts, windows and scripts -/

/-- The core of a text means what the text means. The induction is on the items, with the marks of
those in front. -/
theorem meansBehind_core_iff {before : List (Option Token)} {items : Outline.Text}
    {lines : List Line} :
    Outline.Text.MeansBehind before items.core lines ↔
      Outline.Text.MeansBehind before items lines := by
  induction items generalizing before with
  | nil => rfl
  | cons item rest ih =>
    change Outline.Text.MeansBehind before (item.core ++ Outline.Text.core rest) lines ↔ _
    cases item with
    | run text =>
      have hsame : Outline.runMarks (stripNewlines text) = Outline.runMarks text := by
        rw [Outline.runMarks, Outline.runMarks,
          stripNewlines_eq_self (newline_notMem_stripNewlines text)]
      rw [meansBehind_run_iff, Outline.Item.core, ← ih]
      split_ifs with hempty
      · rw [Outline.runMarks, if_pos hempty, List.append_nil, List.nil_append]
      · rw [List.singleton_append, meansBehind_run_iff, hsame]
    | tag t =>
      rw [Outline.Item.core, List.singleton_append, meansBehind_tag_iff, meansBehind_tag_iff]
      exact exists_congr fun mark ↦ and_congr tag_means_core_iff ih

theorem text_means_core_iff {items : Outline.Text} {lines : List Line} :
    Outline.Text.Means (Outline.Text.core items) lines ↔ Outline.Text.Means items lines := by
  change Outline.Text.MeansBehind [] (Outline.Text.core items) lines ↔
    Outline.Text.MeansBehind [] items lines
  exact meansBehind_core_iff

theorem speakerMeans_core_iff {speaker : Option Outline.Text} {who : Option Speaker} :
    Outline.SpeakerMeans (speaker.map Outline.Text.core) who ↔
      Outline.SpeakerMeans speaker who := by
  cases speaker with
  | none => rfl
  | some name =>
    constructor
    · rintro ⟨⟩
      rename_i lines h
      exact .present (text_means_core_iff.mp h)
    · rintro ⟨⟩
      rename_i lines h
      exact .present (text_means_core_iff.mpr h)

theorem window_means_core_iff {window : Outline.Window} {compiled : DialogueScript.Window} :
    window.core.Means compiled ↔ window.Means compiled := by
  cases window with
  | dialog identifier speaker body =>
    constructor
    · rintro ⟨⟩
      rename_i hspeaker hbody
      exact .dialog (speakerMeans_core_iff.mp hspeaker) (text_means_core_iff.mp hbody)
    · rintro ⟨⟩
      rename_i hspeaker hbody
      exact .dialog (speakerMeans_core_iff.mpr hspeaker) (text_means_core_iff.mpr hbody)
  | selection identifier body =>
    constructor
    · rintro ⟨⟩
      rename_i hbody
      exact .selection (text_means_core_iff.mp hbody)
    · rintro ⟨⟩
      rename_i hbody
      exact .selection (text_means_core_iff.mpr hbody)

/-- The core of an outline means what the outline means. -/
theorem means_core_iff {outline : Outline} {version : FormatVersion} {script : Script} :
    outline.core.Means version script ↔ outline.Means version script := by
  have hwindows : List.Forall₂ Outline.Window.Means outline.core script.windows ↔
      List.Forall₂ Outline.Window.Means outline script.windows := by
    rw [Outline.core, List.forall₂_map_left_iff]
    simp only [window_means_core_iff]
  have hnil : outline.core = [] ↔ outline = [] := List.map_eq_nil_iff
  exact ⟨fun h ↦ ⟨mt hnil.mpr h.ne_nil, h.formatVersion, hwindows.mp h.windows⟩,
    fun h ↦ ⟨mt hnil.mp h.ne_nil, h.formatVersion, hwindows.mpr h.windows⟩⟩

/-- Trees with one core have one script, or none. -/
theorem value_script_congr {document other : Document} (version : FormatVersion)
    (h : other.outline.core = document.outline.core) :
    (other.script version).value = (document.script version).value := by
  refine Option.ext fun script ↦ ?_
  rw [value_script_iff, value_script_iff, ← means_core_iff, h, means_core_iff]

/-! ### Sources -/

/-- Assumes: a source that is read, and formatting edits of it, one after another. The edited source
is read too, and it compiles to the same script or, like the source, to none. This is so with a mark
of byte order in front of both and without it. -/
theorem compile_formatting {source edited : List Char} {document : Document}
    (hparse : parse source = .ok document)
    (hedits : Relation.ReflTransGen EditedTo source edited) :
    (∃ other, parse edited = .ok other) ∧ ∀ version,
      (tryCompile version (.text edited)).value = (tryCompile version (.text source)).value ∧
      (tryCompile version (.text (Utf8.byteOrderMark :: edited))).value =
        (tryCompile version (.text (Utf8.byteOrderMark :: source))).value := by
  obtain ⟨other, hother, hcore⟩ := exists_parse_of_edits hparse hedits
  have hplain : ∀ {text : List Char} {tree : Document}, parse text = .ok tree →
      Utf8.dropMark text = text := by
    intro text tree htext
    obtain ⟨hspelled, rfl⟩ := spelled_of_parse htext
    exact dropMark_text hspelled.1
  have hvalue : ∀ {text changed : List Char} (version : FormatVersion),
      Utf8.dropMark text = source → Utf8.dropMark changed = edited →
        (compileText version changed).value = (compileText version text).value := by
    rintro text changed version rfl rfl
    rw [value_compileText_of_parse hother, value_compileText_of_parse hparse,
      value_script_congr version hcore]
  have hmark : ∀ text, Utf8.dropMark (Utf8.byteOrderMark :: text) = text := by
    intro text
    rw [Utf8.dropMark, if_pos rfl]
  exact ⟨⟨other, hother⟩, fun version ↦ ⟨hvalue version (hplain hparse) (hplain hother),
    hvalue version (hmark source) (hmark edited)⟩⟩

/-- The letter of a tag changes its case, and then a line feed is put behind the tag. -/
theorem compile_formatting_break :
    (∃ other, parse "[sel a]x<n>\n".toList = .ok other) ∧
      (tryCompile .v1 (.text "[sel a]x<n>\n".toList)).value =
        (tryCompile .v1 (.text "[sel a]x<N>".toList)).value := by
  have hparse : parse "[sel a]x<N>".toList = .ok ⟨[], [.selection ⟨[], ['s', 'e', 'l'],
      some ⟨[' '], ['a']⟩, [], [.run ['x'], .tag ⟨[], some ['N'], [], []⟩]⟩]⟩ := by cbv
  have hlower : parse "[sel a]x<n>".toList = .ok ⟨[], [.selection ⟨[], ['s', 'e', 'l'],
      some ⟨[' '], ['a']⟩, [], [.run ['x'], .tag ⟨[], some ['n'], [], []⟩]⟩]⟩ := by cbv
  have hid : TaggedText.Edit [.run ['x'], .tag ⟨[], some ['N'], [], []⟩]
      [.run ['x'], .tag ⟨[], some ['n'], [], []⟩] := .tag [.run ['x']] [] (.id rfl rfl)
  have hrun : TaggedText.Edit [.run ['x'], .tag ⟨[], some ['n'], [], []⟩]
      [.run ['x'], .tag ⟨[], some ['n'], [], []⟩, .run ['\n']] :=
    .newRun [.run ['x'], .tag ⟨[], some ['n'], [], []⟩] [] (by rintro _ ⟨⟩ ⟨⟩) (by simp)
  have hcase : EditedTo "[sel a]x<N>".toList "[sel a]x<n>".toList :=
    ⟨_, _, hparse, @Document.Edit.window _ [] [] _ _ rfl (.selection (.body hid)), by decide⟩
  have hfeed : EditedTo "[sel a]x<n>".toList "[sel a]x<n>\n".toList :=
    ⟨_, _, hlower, @Document.Edit.window _ [] [] _ _ rfl (.selection (.body hrun)), by decide⟩
  obtain ⟨hread, hvalue⟩ := compile_formatting hparse (.tail (.tail .refl hcase) hfeed)
  exact ⟨hread, (hvalue .v1).1⟩

end DialogueScript
