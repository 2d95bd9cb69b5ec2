import DialogueScript.Proofs.Compile.Meaning
import DialogueScript.Proofs.Compile.Step
import DialogueScript.Proofs.Syntax.Completeness

/-!
# A source compiles to what it means

The compiler takes a concrete tree, and its steps thread places and reports. None of this shows in
the value: the value of every step on a tree is the meaning of the outline of the tree
(`value_script_iff`). Since a spelling of an outline is read as a tree with this outline, a spelling
compiles to what the outline means, and it compiles exactly if the outline is valid
(`compile_spelling_iff`).
-/

set_option autoImplicit false
set_option relaxedAutoImplicit false

namespace DialogueScript

open Syntax

/-! ### Tags -/

theorem value_literalValue_iff {literal : Located (List Char)} {n : Int16} :
    (literalValue literal).value = some n ↔ Outline.Decodes literal.value n := by
  unfold literalValue Outline.Decodes
  cases Literal.value literal.value with
  | ok m => simp
  | error e => simp

/-- The literals of a tag are those of its outline. -/
theorem map_value_literals (tag : Tag) (place : Place) :
    (tag.literals place).map Located.value = tag.outline.literals := by
  calc (tag.literals place).map Located.value
      = ((locate Argument.text (place.after tag.beforeArgs) tag.args).map Located.value).map
          Argument.literal := by rw [Tag.literals, List.map_map, List.map_map]; rfl
    _ = tag.outline.literals := by rw [map_value_locate, Tag.outline]

theorem value_forEach_literalValue_iff {literals : List (Located (List Char))}
    {values : List Int16} :
    (Step.forEach literalValue literals).value = some values ↔
      List.Forall₂ Outline.Decodes (literals.map Located.value) values := by
  simp only [Step.value_forEach_eq_some_iff, value_literalValue_iff, List.forall₂_map_left_iff]

theorem value_call_iff {tag : Tag} {place : Place} {token : Token} :
    (tag.call place).value = some token ↔
      ∃ table index arguments, token = .function table index arguments ∧
        List.Forall₂ Outline.Decodes tag.outline.literals (table :: index :: arguments) := by
  rw [← map_value_literals tag place]
  unfold Tag.call
  match tag.literals place with
  | [] => simp
  | [table] => simp
  | table :: index :: arguments =>
    simp only [Step.value_bind_eq_some_iff, Step.value_pure, value_literalValue_iff,
      value_forEach_literalValue_iff, List.map_cons, List.forall₂_cons, Option.some_inj]
    constructor
    · rintro ⟨t, ht, i, hi, values, hvalues, rfl⟩
      exact ⟨t, i, values, rfl, ht, hi, hvalues⟩
    · rintro ⟨t, i, values, rfl, ht, hi, hvalues⟩
      exact ⟨t, ht, i, hi, values, hvalues, rfl⟩

/-- The meaning of a tag by the control that its id stands for. -/
theorem means_tag_iff {tag : Tag} {place : Place} {mark : Option Token} :
    tag.outline.Means mark ↔
      (tag.id.bind Control.ofId? = some .call ∧
          ∃ token, (tag.call place).value = some token ∧ some token = mark) ∨
        (tag.id.bind Control.ofId? = some .newLine ∧ some .newLine = mark) ∨
          (tag.id.bind Control.ofId? = some .endLine ∧ none = mark) := by
  have hletter : ∀ control : Control,
      tag.outline.HasLetter control.letter ↔ tag.id.bind Control.ofId? = some control := by
    intro control
    rw [Option.bind_eq_some_iff]
    simp only [Control.ofId?_eq_some_iff, Outline.Tag.HasLetter, Tag.outline]
    cases tag.id <;> simp
  simp only [← hletter, value_call_iff]
  constructor
  · intro hmeans
    cases hmeans with
    | call hcall hvalues => exact Or.inl ⟨hcall, _, ⟨_, _, _, rfl, hvalues⟩, rfl⟩
    | newLine hnewLine => exact Or.inr (Or.inl ⟨hnewLine, rfl⟩)
    | endLine hendLine => exact Or.inr (Or.inr ⟨hendLine, rfl⟩)
  · rintro (⟨hcall, _, ⟨_, _, _, rfl, hvalues⟩, rfl⟩ | ⟨hnewLine, rfl⟩ | ⟨hendLine, rfl⟩)
    · exact .call hcall hvalues
    · exact .newLine hnewLine
    · exact .endLine hendLine

/-- What a tag compiles to is what it means. -/
theorem value_token_iff {tag : Tag} {place : Place} {mark : Option Token} :
    (tag.token place).value = some mark ↔ tag.outline.Means mark := by
  rw [@means_tag_iff tag place mark]
  unfold Tag.token
  cases tag.id with
  | none => simp
  | some id =>
    rw [Option.bind_some]
    dsimp only
    cases Control.ofId? id with
    | none => simp
    | some control =>
      cases control with
      | call => simp [Option.map_eq_some_iff]
      | newLine => simp
      | endLine => simp

/-! ### Lines -/

/-- A line of tokens, ended. -/
theorem cutLines_append_end (tokens : List Token) (marks : List (Option Token)) :
    Outline.cutLines (tokens.map some ++ none :: marks) = ⟨tokens⟩ :: Outline.cutLines marks := by
  have hopen : ∀ mark ∈ tokens.map some, mark.isNone = false := by simp
  have hne : marks.splitOnP Option.isNone ≠ [] := List.splitOnP_ne_nil _ _
  have hline : (tokens.map some).reduceOption = tokens := by
    simp [List.reduceOption]
  simp only [Outline.cutLines]
  rw [List.splitOnP_append_cons_of_forall_mem hopen none rfl, List.getLast?_cons_of_ne_nil hne,
    List.dropLast_cons_of_ne_nil hne]
  split_ifs with hlast
  · rw [List.map_cons, hline]
  · rw [List.map_cons, hline]

/-- Tokens behind the last end of a line are a line if there are any. -/
theorem cutLines_map_some (tokens : List Token) :
    Outline.cutLines (tokens.map some) = if tokens.isEmpty then [] else [⟨tokens⟩] := by
  have hopen : ∀ mark ∈ tokens.map some, mark.isNone = false := by simp
  simp only [Outline.cutLines, List.splitOnP_eq_singleton hopen]
  cases tokens with
  | nil => rfl
  | cons token rest => simp [List.reduceOption]

theorem runMarks_eq (run : List Char) :
    Outline.runMarks run = (runTokens run).map some := by
  unfold Outline.runMarks runTokens
  cases stripNewlines run with
  | nil => rfl
  | cons c rest => rfl

/-- The lines that a text means behind marks that are already there. -/
def Syntax.Outline.Text.MeansBehind (before : List (Option Token)) (items : Outline.Text)
    (lines : List Line) : Prop :=
  ∃ marks, List.Forall₂ Outline.Item.Means items marks ∧
    lines = Outline.cutLines (before ++ marks.flatten)

/-- A piece of a text adds what it means to the marks before it. -/
theorem meansBehind_cons {before marks : List (Option Token)} {item : Outline.Item}
    {rest : Outline.Text} {lines : List Line} (hitem : item.Means marks)
    (hrest : rest.MeansBehind (before ++ marks) lines) :
    Outline.Text.MeansBehind before (item :: rest) lines := by
  obtain ⟨later, hlater, rfl⟩ := hrest
  exact ⟨marks :: later, .cons hitem hlater, by rw [List.flatten_cons, List.append_assoc]⟩

theorem meansBehind_nil_iff {before : List (Option Token)} {lines : List Line} :
    Outline.Text.MeansBehind before [] lines ↔ lines = Outline.cutLines before := by
  simp only [Outline.Text.MeansBehind, List.forall₂_nil_left_iff, exists_eq_left, List.flatten_nil,
    List.append_nil]

/-- A run adds its marks to those before it. -/
theorem meansBehind_run_iff {before : List (Option Token)} {text : List Char}
    {rest : Outline.Text} {lines : List Line} :
    Outline.Text.MeansBehind before (.run text :: rest) lines ↔
      Outline.Text.MeansBehind (before ++ Outline.runMarks text) rest lines := by
  simp only [Outline.Text.MeansBehind, List.forall₂_cons_left_iff, List.append_assoc]
  constructor
  · rintro ⟨_, ⟨_, marks, ⟨_⟩, hmarks, rfl⟩, rfl⟩
    exact ⟨marks, hmarks, rfl⟩
  · rintro ⟨marks, hmarks, rfl⟩
    exact ⟨_ :: marks, ⟨_, _, .run text, hmarks, rfl⟩, rfl⟩

/-- A tag adds what it means to the marks before it. -/
theorem meansBehind_tag_iff {before : List (Option Token)} {tag : Outline.Tag}
    {rest : Outline.Text} {lines : List Line} :
    Outline.Text.MeansBehind before (.tag tag :: rest) lines ↔
      ∃ mark, tag.Means mark ∧ Outline.Text.MeansBehind (before ++ [mark]) rest lines := by
  simp only [Outline.Text.MeansBehind, List.forall₂_cons_left_iff, List.append_assoc]
  constructor
  · rintro ⟨_, ⟨first, marks, hmeans, hmarks, rfl⟩, rfl⟩
    cases hmeans with
    | tag hmark => exact ⟨_, hmark, marks, hmarks, rfl⟩
  · rintro ⟨mark, hmark, marks, hmarks, rfl⟩
    exact ⟨[mark] :: marks, ⟨_, _, .tag hmark, hmarks, rfl⟩, rfl⟩

/-- Behind the end of a line the next line begins without tokens. -/
theorem meansBehind_end_iff {tokens : List Token} {items : Outline.Text} {lines : List Line} :
    items.MeansBehind (tokens.map some ++ [none]) lines ↔
      ∃ later, items.MeansBehind [] later ∧ ⟨tokens⟩ :: later = lines := by
  simp only [Outline.Text.MeansBehind, List.append_assoc, List.singleton_append,
    cutLines_append_end, List.nil_append]
  constructor
  · rintro ⟨marks, hmarks, rfl⟩
    exact ⟨_, ⟨marks, hmarks, rfl⟩, rfl⟩
  · rintro ⟨_, ⟨marks, hmarks, rfl⟩, rfl⟩
    exact ⟨marks, hmarks, rfl⟩

/-- The lines of a text, behind tokens of the current line. The induction is on the items, since
every item may add to the tokens that the rest finds. -/
theorem value_linesFrom_iff {items : TaggedText} {place : Place} {begun : List Token}
    {lines : List Line} :
    (items.linesFrom place begun).value = some lines ↔
      items.outline.MeansBehind (begun.map some) lines := by
  induction items generalizing place begun lines with
  | nil =>
    rw [TaggedText.linesFrom, TaggedText.outline, List.map_nil, Step.value_pure, Option.some_inj,
      meansBehind_nil_iff, cutLines_map_some, eq_comm]
  | cons item rest ih =>
    rw [TaggedText.outline, List.map_cons]
    cases item with
    | run text =>
      rw [TaggedText.linesFrom, ih, Item.outline, meansBehind_run_iff, runMarks_eq,
        List.map_append]
      rfl
    | tag t =>
      rw [TaggedText.linesFrom, Step.value_bind_eq_some_iff, Item.outline, meansBehind_tag_iff]
      refine exists_congr fun mark ↦ and_congr value_token_iff ?_
      cases mark with
      | none =>
        rw [Step.value_reportIf_bind, Step.value_map, Option.map_eq_some_iff, meansBehind_end_iff]
        simp only [ih]
        rfl
      | some token =>
        rw [ih, List.map_append, List.map_singleton]
        rfl

/-- What a text compiles to are the lines that it means. -/
theorem value_lines_iff {items : TaggedText} {place : Place} {lines : List Line} :
    (items.lines place).value = some lines ↔ items.outline.Means lines := by
  rw [TaggedText.lines, Step.value_report_bind, value_linesFrom_iff]
  rfl

/-- The text of a tree means one list of lines. -/
theorem lines_eq_of_means {items : TaggedText} {lines others : List Line}
    (hlines : items.outline.Means lines) (hothers : items.outline.Means others) :
    lines = others := by
  have hvalue : (items.lines .start).value = some lines := value_lines_iff.mpr hlines
  exact Option.some.inj (hvalue.symm.trans (value_lines_iff.mpr hothers))

/-! ### Windows -/

theorem value_optionalSpeaker_iff {speaker : Option TaggedText} {place : Place}
    {who : Option Speaker} :
    (optionalSpeaker speaker place).value = some who ↔
      Outline.SpeakerMeans (speaker.map TaggedText.outline) who := by
  cases speaker with
  | none =>
    rw [optionalSpeaker, Step.value_pure, Option.some_inj]
    constructor
    · rintro rfl
      exact .absent
    · rintro ⟨⟩
      rfl
  | some name =>
    simp only [optionalSpeaker, speakerOf, Step.value_report_bind, Step.value_bind_eq_some_iff,
      Step.value_reportIf_bind, Step.value_pure, value_lines_iff, Option.map_some, Option.some_inj]
    constructor
    · rintro ⟨lines, hlines, rfl⟩
      exact .present hlines
    · intro hmeans
      cases hmeans with
      | present hlines => exact ⟨_, hlines, rfl⟩

theorem value_requiredName_iff {label : Option Label} {defect : Defect} {position : Position}
    {name : String} :
    (requiredName label defect position).value = some name ↔
      ∃ identifier ∈ label.map Label.identifier, name = String.ofList identifier := by
  cases label with
  | none => simp [requiredName]
  | some label => simp [requiredName, eq_comm]

/-- What a window compiles to is the window that it means. -/
theorem value_compileWindow_iff {window : Located Syntax.Window}
    {compiled : DialogueScript.Window} :
    (compileWindow window).value = some compiled ↔ window.value.outline.Means compiled := by
  obtain ⟨place, window⟩ := window
  cases window with
  | dialog w =>
    simp only [compileWindow, Dialog.compile, Step.value_map, Option.map_eq_some_iff,
      Step.value_report_bind, Step.value_bind_eq_some_iff, Step.value_pure, value_requiredName_iff,
      value_optionalSpeaker_iff, value_lines_iff, Window.outline, Option.some_inj]
    constructor
    · rintro ⟨_, ⟨_, ⟨identifier, hidentifier, rfl⟩, who, hwho, lines, hlines, rfl⟩, rfl⟩
      rw [Option.mem_def.mp hidentifier]
      exact .dialog hwho hlines
    · generalize w.label.map Label.identifier = identifier
      intro hmeans
      cases hmeans with
      | dialog hwho hlines => exact ⟨_, ⟨_, ⟨_, rfl, rfl⟩, _, hwho, _, hlines, rfl⟩, rfl⟩
  | selection w =>
    simp only [compileWindow, Selection.compile, Step.value_map, Option.map_eq_some_iff,
      Step.value_report_bind, Step.value_bind_eq_some_iff, Step.value_pure, value_requiredName_iff,
      value_lines_iff, Window.outline, Option.some_inj]
    constructor
    · rintro ⟨_, ⟨_, ⟨identifier, hidentifier, rfl⟩, lines, hlines, rfl⟩, rfl⟩
      rw [Option.mem_def.mp hidentifier]
      exact .selection hlines
    · generalize w.label.map Label.identifier = identifier
      intro hmeans
      cases hmeans with
      | selection hlines => exact ⟨_, ⟨_, ⟨_, rfl, rfl⟩, _, hlines, rfl⟩, rfl⟩

/-- What a document compiles to is the script that its outline means. -/
theorem value_script_iff {document : Document} {version : FormatVersion} {script : Script} :
    (document.script version).value = some script ↔ document.outline.Means version script := by
  have hwindows : ∀ {place : Place} {windows : List Syntax.Window}
      {compiled : List DialogueScript.Window},
      (Step.forEach compileWindow (locate Window.text place windows)).value = some compiled ↔
        List.Forall₂ Outline.Window.Means (windows.map Window.outline) compiled := by
    intro place windows compiled
    have hmap : windows.map Window.outline =
        (locate Window.text place windows).map fun window ↦ window.value.outline := by
      calc windows.map Window.outline
          = ((locate Window.text place windows).map Located.value).map Window.outline := by
            rw [map_value_locate]
        _ = (locate Window.text place windows).map fun window ↦ window.value.outline := by
            rw [List.map_map]; rfl
    rw [Step.value_forEach_eq_some_iff, hmap, List.forall₂_map_left_iff]
    simp only [value_compileWindow_iff]
  rw [Document.script, Step.value_report_bind]
  cases hlist : document.windows with
  | nil =>
    refine iff_of_false (by simp) fun hmeans ↦ hmeans.ne_nil ?_
    rw [Document.outline, hlist, List.map_nil]
  | cons window rest =>
    have houtline : document.outline = (window :: rest).map Window.outline := by
      rw [Document.outline, hlist]
    rw [houtline]
    dsimp only
    rw [Step.value_map, Option.map_eq_some_iff]
    simp only [hwindows]
    constructor
    · rintro ⟨windows, hmeans, rfl⟩
      exact ⟨List.cons_ne_nil _ _, rfl, hmeans⟩
    · rintro ⟨_, rfl, hmeans⟩
      exact ⟨script.windows, hmeans, rfl⟩

/-! ### Sources -/

/-- A source of the language does not begin with the mark of byte order. -/
theorem dropMark_text {document : Document} (hspaced : document.Spaced) :
    Utf8.dropMark document.text = document.text := by
  have hhead : ∀ c ∈ document.text.head?, c ≠ Utf8.byteOrderMark := by
    obtain ⟨blanks, windows⟩ := document
    obtain ⟨hblanks, _⟩ := hspaced
    rintro c hc rfl
    cases blanks with
    | cons blank rest =>
      obtain rfl : blank = Utf8.byteOrderMark := Option.some.inj hc
      have hblank : isBlank Utf8.byteOrderMark = true :=
        Spelling.mem_blanks.mp hblanks Utf8.byteOrderMark List.mem_cons_self
      exact absurd hblank (by decide)
    | nil =>
      cases windows with
      | nil => exact absurd hc (by simp [Document.text])
      | cons window rest =>
        have hopen : '[' = Utf8.byteOrderMark := by
          cases window <;> exact Option.some.inj hc
        exact absurd hopen (by decide)
  cases htext : document.text with
  | nil => rfl
  | cons c rest =>
    rw [htext] at hhead
    exact if_neg (hhead c rfl)

/-- Assumes: a text is read as a tree. Its script is the script of the tree. -/
theorem value_compileText_of_parse {version : FormatVersion} {text : List Char}
    {document : Document} (hparse : parse (Utf8.dropMark text) = .ok document) :
    (compileText version text).value = (document.script version).value := by
  unfold compileText
  rw [hparse]
  dsimp only
  split
  · rename_i heq
    rw [heq]
    rfl
  · rfl

/-- A text that compiles is read as a tree, which has the script. -/
theorem exists_parse_of_compileText {version : FormatVersion} {text : List Char} {script : Script}
    (h : (compileText version text).value = some script) :
    ∃ document, parse (Utf8.dropMark text) = .ok document ∧
      (document.script version).value = some script := by
  cases hparse : parse (Utf8.dropMark text) with
  | error error =>
    unfold compileText at h
    rw [hparse] at h
    exact absurd h.symm (Option.some_ne_none script)
  | ok document =>
    rw [value_compileText_of_parse hparse] at h
    exact ⟨document, rfl, h⟩

/-- Assumes: a text is read as a tree that has a script. Compiling the text is compiling the
tree. -/
theorem compileText_eq_script {version : FormatVersion} {text : List Char} {document : Document}
    {script : Script} (hparse : parse (Utf8.dropMark text) = .ok document)
    (hvalue : (document.script version).value = some script) :
    compileText version text = document.script version := by
  unfold compileText
  rw [hparse]
  dsimp only
  split
  · rename_i heq
    rw [heq] at hvalue
    exact absurd hvalue.symm (Option.some_ne_none script)
  · rfl

/-- Assumes: a text spells a well-formed outline. The text compiles exactly if the outline is valid,
and it compiles to the script that the outline means under the format version of the options, and
to no other. -/
theorem compile_spelling_iff {outline : Outline} (hwell : outline.WellFormed) {source : List Char}
    (hsource : source ∈ outline.spellings) (options : Options) :
    ((∃ script, (compile options.formatVersion (.text source)).result = .ok script) ↔
        outline.Valid) ∧
      ∀ script, (compile options.formatVersion (.text source)).result = .ok script ↔
        outline.Means options.formatVersion script := by
  have hmeans : ∀ script, (compile options.formatVersion (.text source)).result = .ok script ↔
      outline.Means options.formatVersion script := by
    intro script
    obtain ⟨tree, hspaced, rfl, rfl⟩ := mem_spellings_iff.mp hsource
    have hparse : parse (Utf8.dropMark tree.text) = .ok tree.settle := by
      rw [dropMark_text hspaced, parse_text ⟨hspaced, hwell⟩]
    rw [compile, Step.result_conclude_eq_ok_iff, value_compileText_of_parse hparse,
      value_script_iff, outline_settle]
  refine ⟨?_, hmeans⟩
  rw [← Outline.exists_means_iff_valid]
  exact exists_congr hmeans

/-- A dialog window with a keyword in mixed case, a speaker, a call and a line that is not ended. -/
theorem compile_greeting :
    (compile .v1 (.text "[ dLg hi [B<e>]]<F 1 0x2>D\n".toList)).result =
      .ok ⟨.v1, [.dialog ⟨"hi", some (.named ⟨[.text "B"]⟩),
        [⟨[.function 1 2 [], .text "D"]⟩]⟩]⟩ := by
  have hparse : parse "[ dLg hi [B<e>]]<F 1 0x2>D\n".toList = .ok ⟨[], [.dialog ⟨[' '],
      ['d', 'L', 'g'], some ⟨[' '], ['h', 'i']⟩, [' '],
      some [.run ['B'], .tag ⟨[], some ['e'], [], []⟩], [],
      [.tag ⟨[], some ['F'], [⟨[' '], ['1']⟩, ⟨[' '], ['0', 'x', '2']⟩], []⟩,
        .run ['D', '\n']]⟩]⟩ := by cbv
  obtain ⟨⟨hspaced, hwell⟩, htext⟩ := spelled_of_parse hparse
  have hsource := mem_spellings_iff.mpr ⟨_, hspaced, rfl, htext⟩
  have hname : Outline.Text.Means [.run ['B'], .tag ⟨some ['e'], []⟩] [⟨[.text "B"]⟩] :=
    ⟨[[some (.text "B")], [none]], .cons (.run ['B']) (.cons (.tag (.endLine (Or.inl rfl))) .nil),
      by cbv⟩
  have hbody : Outline.Text.Means [.tag ⟨some ['F'], [['1'], ['0', 'x', '2']]⟩, .run ['D', '\n']]
      [⟨[.function 1 2 [], .text "D"]⟩] :=
    ⟨[[some (.function 1 2 [])], [some (.text "D")]],
      .cons (.tag (.call (Or.inr rfl) (.cons rfl (.cons rfl .nil)))) (.cons (.run _) .nil), by cbv⟩
  exact ((compile_spelling_iff hwell hsource ⟨.v1, "MessageScriptCompiler"⟩).2 _).mpr
    ⟨List.cons_ne_nil _ _, rfl, .cons (.dialog (.present hname) hbody) .nil⟩

end DialogueScript
