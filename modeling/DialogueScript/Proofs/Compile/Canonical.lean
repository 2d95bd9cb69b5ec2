import DialogueScript.Proofs.Compile.Correctness
import DialogueScript.Proofs.Text.Newline

/-!
# What compiled scripts look like

A script that comes out of a compilation is canonical (`Script.Canonical`): it has a window, its
identifiers are words of the grammar, its speakers have their names, and on each of its lines a text
is not empty, holds no bracket and no line feed, and does not touch another text.

A line is canonical because of what stands in the source. Two runs never stand next to each other in
a well-formed text, so that a tag separates the texts of any two runs. The tag leaves a mark of its
own, also where a run between two tags leaves none. A line is a stretch of the marks of its text
(`infix_of_mem_cutLines`), and a stretch of marks without touching texts has none.
-/

set_option autoImplicit false
set_option relaxedAutoImplicit false

namespace DialogueScript

open Syntax

/-! ### Canonical scripts -/

/-- The token is a text. -/
def Token.IsText : Token → Prop
  | .text _ => True
  | _ => False

/-- A text is not empty and holds neither a bracket nor a line feed. -/
def Token.Canonical : Token → Prop
  | .text content => content ≠ "" ∧ ∀ c ∈ content.toList, c ∉ ['[', ']', '<', '>', '\n']
  | _ => True

/-- The tokens of a line are canonical, and no two texts stand next to each other. -/
structure Line.Canonical (line : Line) : Prop where
  each : ∀ token ∈ line.tokens, token.Canonical
  texts : line.tokens.IsChain fun first second ↦ ¬(first.IsText ∧ second.IsText)

/-- A speaker has a name, which is canonical. -/
def Speaker.Canonical : Speaker → Prop
  | .named nameLine => nameLine.Canonical
  | .variablyNamed => False

/-- The identifier of a window is a word of the grammar, and the speaker and the lines are
canonical. -/
structure DialogWindow.Canonical (window : DialogWindow) : Prop where
  identifier : window.identifier.toList ∈ Spelling.identifier
  speaker : ∀ speaker ∈ window.speaker, speaker.Canonical
  lines : ∀ line ∈ window.lines, line.Canonical

/-- The identifier of a window is a word of the grammar, and the lines are canonical. -/
structure SelectionWindow.Canonical (window : SelectionWindow) : Prop where
  identifier : window.identifier.toList ∈ Spelling.identifier
  lines : ∀ line ∈ window.lines, line.Canonical

/-- A window of either kind is canonical. -/
def Window.Canonical : DialogueScript.Window → Prop
  | .dialog window => window.Canonical
  | .selection window => window.Canonical

/-- There is a window, and all of them are canonical. -/
structure Script.Canonical (script : Script) : Prop where
  ne_nil : script.windows ≠ []
  windows : ∀ window ∈ script.windows, window.Canonical

/-! ### Marks of a text -/

theorem isPlain_iff {c : Char} : isPlain c = true ↔ c ∉ ['[', ']', '<', '>'] := by
  simp [isPlain, isReserved, not_or, and_assoc]

/-- The text that a run means, if any is left of it, is canonical. -/
theorem canonical_of_run {text : List Char} (htext : text ∈ Spelling.run)
    (hne : stripNewlines text ≠ []) :
    (Token.text (String.ofList (stripNewlines text))).Canonical := by
  refine ⟨by simpa using hne, fun c hc ↦ ?_⟩
  rw [String.toList_ofList] at hc
  have hplain := (Spelling.mem_run.mp htext).2 c ((sublist_stripNewlines text).subset hc)
  have hbracket : c ∉ ['[', ']', '<', '>'] := isPlain_iff.mp hplain
  have hfeed : c ≠ '\n' := fun h ↦ newline_notMem_stripNewlines text (h ▸ hc)
  simpa [hfeed] using hbracket

/-- The mark of a tag is no text. -/
theorem not_isText_of_tag_means {tag : Outline.Tag} {token : Token}
    (hmeans : tag.Means (some token)) : ¬token.IsText := by
  cases hmeans with
  | call => exact id
  | newLine => exact id

/-- What a well-formed piece of a text means are canonical tokens. -/
theorem canonical_of_item_means {item : Outline.Item} {marks : List (Option Token)}
    (hwell : item.WellFormed) (hmeans : item.Means marks) {token : Token}
    (htoken : some token ∈ marks) : token.Canonical := by
  cases hmeans with
  | run text =>
    unfold Outline.runMarks at htoken
    split_ifs at htoken with hnil
    · exact absurd htoken List.not_mem_nil
    · obtain rfl := Option.some.inj (List.mem_singleton.mp htoken)
      exact canonical_of_run hwell hnil
  | tag htag =>
    obtain rfl := List.mem_singleton.mp htoken
    cases htag with
    | call => trivial
    | newLine => trivial

/-- Two marks are not both texts. -/
def MarksApart (first second : Option Token) : Prop :=
  ∀ token ∈ first, ∀ other ∈ second, ¬(token.IsText ∧ other.IsText)

/-- Assumes: no two runs of a text stand next to each other. Then no two texts do among its marks.
The induction is on the items. A run is followed by a tag, whose mark keeps its text apart from the
texts behind it. -/
theorem isChain_marks {items : Outline.Text} {marks : List (List (Option Token))}
    (hruns : items.IsChain fun first second ↦ ¬(first.IsRun ∧ second.IsRun))
    (hmeans : List.Forall₂ Outline.Item.Means items marks) :
    marks.flatten.IsChain MarksApart := by
  induction hmeans with
  | nil => exact .nil
  | @cons item first rest later hfirst hlater ih =>
    have hrest := ih (List.isChain_cons.mp hruns).2
    rw [List.flatten_cons]
    cases hfirst with
    | @tag t mark htag =>
      refine List.isChain_cons.mpr ⟨?_, hrest⟩
      rintro next _ token rfl other _ ⟨htext, _⟩
      exact not_isText_of_tag_means htag htext
    | run text =>
      unfold Outline.runMarks
      split_ifs
      · exact hrest
      · refine List.isChain_cons.mpr ⟨?_, hrest⟩
        rintro next hnext token _ other rfl ⟨_, htext⟩
        cases hlater with
        | nil => exact absurd hnext (by simp)
        | cons hsecond _ =>
          cases hsecond with
          | run second => exact (List.isChain_cons_cons.mp hruns).1 ⟨trivial, trivial⟩
          | tag htag =>
            obtain rfl : _ = some other := by simpa using hnext
            exact not_isText_of_tag_means htag htext

/-! ### Lines -/

/-- A line is a stretch of the marks that are cut into lines. The induction is on the marks behind
the tokens of the current line. -/
theorem infix_of_mem_cutLines (tokens : List Token) {marks : List (Option Token)} {line : Line}
    (hline : line ∈ Outline.cutLines (tokens.map some ++ marks)) :
    line.tokens.map some <:+: tokens.map some ++ marks := by
  induction marks generalizing tokens with
  | nil =>
    rw [List.append_nil, cutLines_map_some] at hline
    split_ifs at hline with hempty
    · exact absurd hline List.not_mem_nil
    · rw [List.mem_singleton.mp hline, List.append_nil]
  | cons mark rest ih =>
    cases mark with
    | none =>
      rw [cutLines_append_end, List.mem_cons] at hline
      rcases hline with rfl | hlater
      · exact (List.prefix_append _ _).isInfix
      · have hrest := ih [] hlater
        exact hrest.trans ((List.suffix_cons none rest).trans (List.suffix_append _ _)).isInfix
    | some token =>
      have hshift : tokens.map some ++ some token :: rest =
          (tokens ++ [token]).map some ++ rest := by simp
      rw [hshift] at hline ⊢
      exact ih _ hline

/-- Everything of a list that another list is related to is related to something of it. -/
theorem exists_of_mem_forall₂ {α β : Type} {r : α → β → Prop} {as : List α} {bs : List β}
    (h : List.Forall₂ r as bs) {b : β} (hb : b ∈ bs) : ∃ a ∈ as, r a b := by
  induction h with
  | nil => exact absurd hb List.not_mem_nil
  | @cons a first _ _ hfirst _ ih =>
    rcases List.mem_cons.mp hb with rfl | hlater
    · exact ⟨a, List.mem_cons_self, hfirst⟩
    · obtain ⟨other, hother, hr⟩ := ih hlater
      exact ⟨other, List.mem_cons_of_mem a hother, hr⟩

/-- The lines that a well-formed text means are canonical. -/
theorem canonical_of_text_means {items : Outline.Text} {lines : List Line}
    (hwell : items.WellFormed) (hmeans : items.Means lines) :
    ∀ line ∈ lines, line.Canonical := by
  obtain ⟨marks, hmarks, rfl⟩ := hmeans
  intro line hline
  have hinfix : line.tokens.map some <:+: marks.flatten := infix_of_mem_cutLines [] hline
  have hchain : (line.tokens.map some).IsChain MarksApart := by
    obtain ⟨before, behind, heq⟩ := hinfix
    have hall := isChain_marks hwell.runs hmarks
    rw [← heq] at hall
    exact (List.isChain_append.mp (List.isChain_append.mp hall).1).2.1
  refine ⟨fun token htoken ↦ ?_, ?_⟩
  · have hmem : some token ∈ marks.flatten :=
      hinfix.subset (List.mem_map.mpr ⟨token, htoken, rfl⟩)
    obtain ⟨piece, hpiece, hin⟩ := List.mem_flatten.mp hmem
    obtain ⟨item, hitem, hitemMeans⟩ := exists_of_mem_forall₂ hmarks hpiece
    exact canonical_of_item_means (hwell.each item hitem) hitemMeans hin
  · rw [List.isChain_map] at hchain
    exact hchain.imp fun first second h ↦ h first rfl second rfl

/-! ### Windows and scripts -/

/-- A well-formed window means a canonical one. -/
theorem canonical_of_window_means {window : Outline.Window} {compiled : DialogueScript.Window}
    (hwell : window.WellFormed) (hmeans : window.Means compiled) : compiled.Canonical := by
  cases hmeans with
  | dialog hspeaker hbody =>
    obtain ⟨hidentifier, hname, hlines⟩ := hwell
    refine ⟨?_, fun speaker hmem ↦ ?_, canonical_of_text_means hlines hbody⟩
    · rw [String.toList_ofList]
      exact hidentifier _ rfl
    · cases hspeaker with
      | absent => exact absurd hmem (by simp)
      | present hnameLines =>
        obtain ⟨line, hline, rfl⟩ := Option.map_eq_some_iff.mp hmem
        exact canonical_of_text_means (hname _ rfl) hnameLines line (List.mem_of_mem_head? hline)
  | selection hbody =>
    obtain ⟨hidentifier, hlines⟩ := hwell
    refine ⟨?_, canonical_of_text_means hlines hbody⟩
    rw [String.toList_ofList]
    exact hidentifier _ rfl

/-- A well-formed outline means a canonical script. -/
theorem canonical_of_means {outline : Outline} {version : FormatVersion} {script : Script}
    (hwell : outline.WellFormed) (hmeans : outline.Means version script) : script.Canonical := by
  refine ⟨fun hnil ↦ hmeans.ne_nil ?_, fun window hwindow ↦ ?_⟩
  · have hwindows := hmeans.windows
    rw [hnil] at hwindows
    exact List.forall₂_nil_right_iff.mp hwindows
  · obtain ⟨spelled, hspelled, hwindowMeans⟩ := exists_of_mem_forall₂ hmeans.windows hwindow
    exact canonical_of_window_means (hwell spelled hspelled) hwindowMeans

/-! ### Sources -/

/-- A text that compiles is spelled by an outline that means its script. -/
theorem exists_means_of_compileText {version : FormatVersion} {text : List Char} {script : Script}
    (h : (compileText version text).value = some script) :
    ∃ outline : Outline, outline.WellFormed ∧ outline.Means version script := by
  obtain ⟨document, hparse, hvalue⟩ := exists_parse_of_compileText h
  exact ⟨document.outline, (spelled_of_parse hparse).1.2, value_script_iff.mp hvalue⟩

/-- Whatever the form of a source is, its script is the script of a text. -/
theorem exists_text_of_tryCompile {version : FormatVersion} {source : Source} {script : Script}
    (h : (tryCompile version source).value = some script) :
    ∃ text, (compileText version text).value = some script := by
  have hbytes : ∀ bytes, (compileBytes version bytes).value = some script →
      ∃ text, (compileText version text).value = some script := by
    intro bytes hvalue
    unfold compileBytes at hvalue
    split at hvalue
    · exact ⟨_, hvalue⟩
    · exact absurd hvalue (by simp [giveUp])
  cases source with
  | text text => exact ⟨text, h⟩
  | bytes bytes => exact hbytes bytes h
  | reader reads =>
    unfold tryCompile at h
    dsimp only at h
    split at h
    · exact hbytes _ h
    · exact absurd h (by simp [giveUp])

/-- Both forms of compiling have the same script, or none. -/
theorem result_compile_eq_ok_iff {version : FormatVersion} {source : Source} {script : Script} :
    (compile version source).result = .ok script ↔
      (tryCompile version source).value = some script := by
  cases source with
  | text text => exact Step.result_conclude_eq_ok_iff
  | bytes bytes => exact Step.result_conclude_eq_ok_iff
  | reader reads =>
    cases hread : readToEnd reads with
    | ok bytes =>
      simp only [compile, tryCompile, hread]
      exact Step.result_conclude_eq_ok_iff
    | error reason => simp [compile, tryCompile, hread, giveUp]

/-- Every script that a source compiles to is canonical and has the format version of the
options. -/
theorem canonical_of_tryCompile {version : FormatVersion} {source : Source} {script : Script}
    (h : (tryCompile version source).value = some script) :
    script.Canonical ∧ script.formatVersion = version := by
  obtain ⟨text, htext⟩ := exists_text_of_tryCompile h
  obtain ⟨outline, hwell, hmeans⟩ := exists_means_of_compileText htext
  exact ⟨canonical_of_means hwell hmeans, hmeans.formatVersion⟩

/-- Assumes: a source in any form compiles, in either form of compiling. Its script is canonical and
has the format version of the options. -/
theorem compiled_script_canonical (options : Options) {source : Source} {script : Script}
    (h : (compile options.formatVersion source).result = .ok script ∨
      (tryCompile options.formatVersion source).value = some script) :
    script.Canonical ∧ script.formatVersion = options.formatVersion := by
  rcases h with h | h
  · exact canonical_of_tryCompile (result_compile_eq_ok_iff.mp h)
  · exact canonical_of_tryCompile h

/-- A break between two texts, a run of line endings between two tags, and a second line of a
name. -/
theorem compiled_script_canonical_layout :
    (compile .v1BigEndian (.text "[dlg a_1 [B<e>C]]\nD\r\nE<n>\r\n<n>F<e>\n".toList)).result =
        .ok ⟨.v1BigEndian, [.dialog ⟨"a_1", some (.named ⟨[.text "B"]⟩),
          [⟨[.text "DE", .newLine, .newLine, .text "F"]⟩]⟩]⟩ ∧
      Script.Canonical ⟨.v1BigEndian, [.dialog ⟨"a_1", some (.named ⟨[.text "B"]⟩),
          [⟨[.text "DE", .newLine, .newLine, .text "F"]⟩]⟩]⟩ := by
  have hresult : (compile .v1BigEndian
      (.text "[dlg a_1 [B<e>C]]\nD\r\nE<n>\r\n<n>F<e>\n".toList)).result =
        .ok ⟨.v1BigEndian, [.dialog ⟨"a_1", some (.named ⟨[.text "B"]⟩),
          [⟨[.text "DE", .newLine, .newLine, .text "F"]⟩]⟩]⟩ := by cbv
  have hcanonical :=
    compiled_script_canonical ⟨.v1BigEndian, "MessageScriptCompiler"⟩ (Or.inl hresult)
  exact ⟨hresult, hcanonical.1⟩

end DialogueScript
