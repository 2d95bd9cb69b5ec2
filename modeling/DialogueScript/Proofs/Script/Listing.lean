import DialogueScript.Proofs.Compile.Canonical
import DialogueScript.Proofs.Compile.Outcome
import DialogueScript.Proofs.Compile.Warnings
import DialogueScript.Proofs.Syntax.Decomposition
import DialogueScript.Proofs.Text.Decimal
import DialogueScript.Script.Listing

/-!
# Listings are sources

Without its first row the listing of a canonical script is a source, and it compiles back to the
script (`recompile_listing`). What is lost is a speaker whose name line is empty: its brackets hold
nothing, so that they name no speaker. `Script.dropNameless` is the script without such speakers.

The proof gives the tree that the listing spells. A token becomes a run or a tag, a line becomes its
tokens and the tag `<e>`, and the line feed behind a row is plain text, which belongs to the run at
the beginning of the next line if there is one (`TaggedText.consFeed`). The tree is spelled since
the script is canonical, its text is the listing, and its outline means the script.
-/

set_option autoImplicit false
set_option relaxedAutoImplicit false

namespace DialogueScript

open Syntax

/-! ### Sources of listings -/

/-- The listing of a script without its first row. -/
def Script.listingSource (script : Script) : List Char :=
  (script.listing.toList.dropWhile (· ≠ '\n')).tail

/-- A dialog window without its speaker if the name line of the speaker is empty. -/
def DialogWindow.dropNameless (window : DialogWindow) : DialogWindow :=
  { window with speaker := window.speaker.filter (· ≠ .named ⟨[]⟩) }

/-- A window without its speaker if the name line of the speaker is empty. -/
def Window.dropNameless : DialogueScript.Window → DialogueScript.Window
  | .dialog window => .dialog window.dropNameless
  | .selection window => .selection window

/-- A script without the speakers whose name line is empty. -/
def Script.dropNameless (script : Script) : Script :=
  { script with windows := script.windows.map Window.dropNameless }

/-- The characters of a row and the line feed behind it. -/
def rowText (row : String) : List Char :=
  row.toList ++ ['\n']

/-- The rows of the windows are left when the first row is dropped. -/
theorem listingSource_eq (script : Script) :
    script.listingSource = (script.windows.flatMap Window.rows).flatMap rowText := by
  have hrows : ∀ rows : List String,
      (String.join (rows.map (· ++ "\n"))).toList = rows.flatMap rowText := by
    intro rows
    rw [String.toList_join, List.flatMap_map]
    exact List.flatMap_congr fun row _ ↦ String.toList_append
  have hfirst : ∀ c ∈ ("# format " ++ script.formatVersion.name).toList, c ≠ '\n' := by
    cases script.formatVersion <;> simp [FormatVersion.name]
  rw [Script.listingSource, Script.listing, hrows, Script.rows, List.flatMap_cons, rowText,
    List.append_assoc, List.dropWhile_append_of_pos (by simpa using hfirst)]
  rfl

/-! ### The tree of a listing -/

/-- A literal behind a space. -/
def literalArgument (n : Int16) : Argument :=
  ⟨[' '], (Decimal.ofInt n.toInt).toList⟩

/-- The tag that ends a line. -/
def endTag : Tag :=
  ⟨[], some ['e'], [], []⟩

/-- A token as a piece of a source. -/
def Token.item : Token → Item
  | .text content => .run content.toList
  | .newLine => .tag ⟨[], some ['n'], [], []⟩
  | .function table index arguments =>
    .tag ⟨[], some ['f'], (table :: index :: arguments).map literalArgument, []⟩

/-- The tokens of a line as a text. -/
def Line.items (line : Line) : TaggedText :=
  line.tokens.map Token.item

/-- A text with a line feed in front of it, in the run at its beginning if there is one. -/
def Syntax.TaggedText.consFeed : TaggedText → TaggedText
  | .run text :: rest => .run ('\n' :: text) :: rest
  | items => .run ['\n'] :: items

/-- The text behind the header of a window with given lines. -/
def listedBody : List Line → TaggedText
  | [] => TaggedText.consFeed []
  | line :: rest => TaggedText.consFeed (line.items ++ .tag endTag :: listedBody rest)

/-- The name of a speaker as a text. -/
def Speaker.items : Speaker → TaggedText
  | .named nameLine => nameLine.items
  | .variablyNamed => [.run ['?']]

/-- A window as a window of a source. -/
def Window.tree : DialogueScript.Window → Syntax.Window
  | .dialog window =>
    .dialog {
      lead := []
      keyword := ['d', 'l', 'g']
      label := some ⟨[' '], window.identifier.toList⟩
      gap := if window.speaker.isSome then [' '] else []
      speaker := window.speaker.map Speaker.items
      tail := []
      body := listedBody window.lines }
  | .selection window =>
    .selection {
      lead := []
      keyword := ['s', 'e', 'l']
      label := some ⟨[' '], window.identifier.toList⟩
      tail := []
      body := listedBody window.lines }

/-- A script as a source. -/
def Script.tree (script : Script) : Document :=
  ⟨[], script.windows.map Window.tree⟩

/-! ### Its text -/

theorem text_item (token : Token) : token.item.text = token.source.toList := by
  cases token with
  | text content => rfl
  | newLine => rfl
  | function table index arguments =>
    have hspaced : (Argument.text ∘ literalArgument : Int16 → List Char) =
        fun n ↦ (Token.source.spaced n).toList := by
      funext n
      simp [Argument.text, literalArgument, Token.source.spaced]
    simp only [Token.item, Item.text, Tag.text, Tag.beforeArgs, Tag.beforeId, Token.source,
      List.flatMap_map, String.toList_append, String.toList_join]
    rw [← Function.comp_def, hspaced]
    simp

theorem text_line (line : Line) : line.items.text = line.source.toList := by
  rw [Line.items, Line.source, TaggedText.text, String.toList_join, List.flatMap_map,
    List.flatMap_map]
  exact List.flatMap_congr fun token _ ↦ text_item token

theorem text_consFeed (items : TaggedText) : items.consFeed.text = '\n' :: items.text := by
  cases items with
  | nil => rfl
  | cons first rest => cases first <;> rfl

theorem text_append (first second : TaggedText) :
    TaggedText.text (first ++ second) = first.text ++ second.text :=
  List.flatMap_append

/-- The rows of the lines stand behind the line feed of the header. -/
theorem text_listedBody (lines : List Line) :
    (listedBody lines).text =
      '\n' :: (lines.map fun line ↦ line.source ++ "<e>").flatMap rowText := by
  induction lines with
  | nil => rfl
  | cons line rest ih =>
    have hcons : TaggedText.text (.tag endTag :: listedBody rest) =
        "<e>".toList ++ (listedBody rest).text := rfl
    rw [listedBody, text_consFeed, text_append, text_line, hcons, ih, List.map_cons,
      List.flatMap_cons, rowText, String.toList_append]
    simp

/-- Assumes: a window whose speaker has a name. The text of its tree are its rows. -/
theorem text_window {window : DialogueScript.Window} (hcanonical : window.Canonical) :
    window.tree.text = window.rows.flatMap rowText := by
  cases window with
  | selection w =>
    simp [Window.tree, Window.text, Selection.text, Selection.header, Selection.beforeLabel,
      Label.text, text_listedBody, Window.rows, Window.header, Window.lines, rowText]
  | dialog w =>
    obtain ⟨identifier, speaker, lines⟩ := w
    cases speaker with
    | none =>
      simp [Window.tree, Window.text, Dialog.text, Dialog.header, Dialog.beforeSpeaker,
        Dialog.beforeLabel, Label.text, text_listedBody, Window.rows, Window.header, Window.lines,
        rowText]
    | some speaker =>
      cases speaker with
      | variablyNamed => exact (hcanonical.speaker .variablyNamed rfl).elim
      | named nameLine =>
        simp [Window.tree, Window.text, Dialog.text, Dialog.header, Dialog.beforeSpeaker,
          Dialog.beforeLabel, Label.text, text_listedBody, Window.rows, Window.header, Window.lines,
          rowText, speakerText, Speaker.items, Speaker.source, text_line]

theorem text_tree {script : Script} (hcanonical : script.Canonical) :
    script.tree.text = script.listingSource := by
  rw [listingSource_eq, Document.text, Script.tree, List.flatMap_map, List.flatMap_assoc,
    List.nil_append]
  exact List.flatMap_congr fun window hwindow ↦ text_window (hcanonical.windows window hwindow)

/-! ### It is spelled -/

theorem space_mem_gap : [' '] ∈ Spelling.gap :=
  Spelling.mem_gap.mpr ⟨List.cons_ne_nil _ _, List.forall_mem_singleton.mpr rfl⟩

/-- A tag of a letter and integers is spelled. -/
theorem spelled_tag {letter : Char} (hletter : letter.isAlpha = true) (values : List Int16) :
    Tag.Spelled ⟨[], some [letter], values.map literalArgument, []⟩ := by
  refine ⟨⟨Language.nil_mem_kstar _, fun argument hargument ↦ ?_, Language.nil_mem_kstar _⟩,
    fun id hid ↦ ?_, fun literal hliteral ↦ ?_, fun hnone ↦ absurd hnone (Option.some_ne_none _)⟩
  · obtain ⟨n, _, rfl⟩ := List.mem_map.mp hargument
    exact space_mem_gap
  · obtain rfl : [letter] = id := Option.some.inj hid
    exact Spelling.mem_tagId.mpr ⟨letter, [], rfl, hletter, List.forall_mem_nil _⟩
  · obtain ⟨argument, hargument, rfl⟩ := List.mem_map.mp hliteral
    obtain ⟨n, _, rfl⟩ := List.mem_map.mp hargument
    exact Literal.ofInt_mem_literal n.toInt

theorem spelled_endTag : endTag.Spelled :=
  spelled_tag rfl []

theorem spelled_item {token : Token} (hcanonical : token.Canonical) : token.item.Spelled := by
  cases token with
  | text content =>
    obtain ⟨hne, hchars⟩ := hcanonical
    refine ⟨trivial, Spelling.mem_run.mpr ⟨by simpa using hne, fun c hc ↦ ?_⟩⟩
    have hc := hchars c hc
    exact isPlain_iff.mpr fun hbracket ↦ hc (by simp_all)
  | newLine => exact spelled_tag rfl []
  | function table index arguments => exact spelled_tag rfl (table :: index :: arguments)

/-- Only a text becomes a run. -/
theorem isText_of_isRun {token : Token} (h : token.item.outline.IsRun) : token.IsText := by
  cases token with
  | text => trivial
  | newLine => exact h
  | function => exact h

theorem spelled_line {line : Line} (hcanonical : line.Canonical) : line.items.Spelled := by
  have hitems : ∀ item ∈ line.items, item.Spelled := by
    intro item hitem
    obtain ⟨token, htoken, rfl⟩ := List.mem_map.mp hitem
    exact spelled_item (hcanonical.each token htoken)
  refine ⟨fun item hitem ↦ (hitems item hitem).1, fun outline houtline ↦ ?_, ?_⟩
  · obtain ⟨item, hitem, rfl⟩ := List.mem_map.mp houtline
    exact (hitems item hitem).2
  · rw [TaggedText.outline, Line.items, List.isChain_map, List.isChain_map]
    exact hcanonical.texts.imp fun first second h hruns ↦
      h ⟨isText_of_isRun hruns.1, isText_of_isRun hruns.2⟩

theorem outline_consFeed (items : TaggedText) :
    items.consFeed.outline = Outline.Text.consPlain '\n' items.outline := by
  cases items with
  | nil => rfl
  | cons first rest => cases first <;> rfl

theorem spelled_consFeed {items : TaggedText} (hspelled : items.Spelled) :
    items.consFeed.Spelled := by
  refine ⟨?_, ?_⟩
  · cases items with
    | nil => exact List.forall_mem_singleton.mpr trivial
    | cons first rest =>
      cases first with
      | run text =>
        exact List.forall_mem_cons.mpr ⟨trivial, (List.forall_mem_cons.mp hspelled.1).2⟩
      | tag t => exact List.forall_mem_cons.mpr ⟨trivial, hspelled.1⟩
  · rw [outline_consFeed]
    exact wellFormed_consPlain rfl hspelled.2

theorem outline_append (first second : TaggedText) :
    TaggedText.outline (first ++ second) = first.outline ++ second.outline :=
  List.map_append

/-- A tag joins two texts that are spelled. -/
theorem spelled_append_tag {first rest : TaggedText} {tag : Tag} (hfirst : first.Spelled)
    (htag : tag.Spelled) (hrest : rest.Spelled) :
    TaggedText.Spelled (first ++ .tag tag :: rest) := by
  refine ⟨List.forall_mem_append.mpr ⟨hfirst.1, List.forall_mem_cons.mpr ⟨htag.1, hrest.1⟩⟩, ?_⟩
  rw [outline_append]
  refine ⟨List.forall_mem_append.mpr ⟨hfirst.2.each,
    List.forall_mem_cons.mpr ⟨htag.2, hrest.2.each⟩⟩, List.isChain_append.mpr ⟨hfirst.2.runs,
      List.isChain_cons.mpr ⟨fun _ _ h ↦ h.1, hrest.2.runs⟩, ?_⟩⟩
  rintro last _ next hnext ⟨_, hrun⟩
  obtain rfl : .tag tag.outline = next := Option.some.inj hnext
  exact hrun

theorem spelled_listedBody {lines : List Line} (hlines : ∀ line ∈ lines, line.Canonical) :
    (listedBody lines).Spelled := by
  induction lines with
  | nil => exact spelled_consFeed ⟨List.forall_mem_nil _, List.forall_mem_nil _, .nil⟩
  | cons line rest ih =>
    obtain ⟨hline, hrest⟩ := List.forall_mem_cons.mp hlines
    exact spelled_consFeed (spelled_append_tag (spelled_line hline) spelled_endTag (ih hrest))

theorem spelled_window {window : DialogueScript.Window} (hcanonical : window.Canonical) :
    window.tree.Spelled := by
  have hlabel : ∀ identifier : String, ∀ label ∈ some (Label.mk [' '] identifier.toList),
      label.gap ∈ Spelling.gap := by
    rintro identifier _ ⟨⟩
    exact space_mem_gap
  cases window with
  | selection w =>
    have hbody := spelled_listedBody hcanonical.lines
    refine ⟨⟨Language.nil_mem_kstar _, (Spelling.mem_anyCase Spelling.isLower_sel).mpr rfl,
      hlabel _, Language.nil_mem_kstar _, hbody.1⟩, ?_, hbody.2⟩
    rintro _ ⟨⟩
    exact hcanonical.identifier
  | dialog w =>
    have hbody := spelled_listedBody hcanonical.lines
    have hname : ∀ name ∈ w.speaker.map Speaker.items, TaggedText.Spelled name := by
      intro name hname
      obtain ⟨speaker, hspeaker, rfl⟩ := Option.map_eq_some_iff.mp hname
      cases speaker with
      | named nameLine => exact spelled_line (hcanonical.speaker _ hspeaker)
      | variablyNamed => exact (hcanonical.speaker _ hspeaker).elim
    have hgap : (if w.speaker.isSome then [' '] else []) ∈ Spelling.spacing := by
      refine Spelling.mem_spacing.mpr ?_
      split_ifs <;> simp [isSpacing]
    refine ⟨⟨Language.nil_mem_kstar _, (Spelling.mem_anyCase Spelling.isLower_dlg).mpr rfl,
      hlabel _, hgap, fun name hmem ↦ (hname name hmem).1, Language.nil_mem_kstar _, hbody.1⟩,
      ?_, ?_, hbody.2⟩
    · rintro _ ⟨⟩
      exact hcanonical.identifier
    · intro outline houtline
      obtain ⟨name, hmem, rfl⟩ := Option.map_eq_some_iff.mp houtline
      exact (hname name hmem).2

theorem spelled_tree {script : Script} (hcanonical : script.Canonical) :
    script.tree.Spelled := by
  refine spelled_document_iff.mpr ⟨Language.nil_mem_kstar _, fun window hwindow ↦ ?_⟩
  obtain ⟨compiled, hcompiled, rfl⟩ := List.mem_map.mp hwindow
  exact spelled_window (hcanonical.windows compiled hcompiled)

/-! ### It means the script -/

theorem forall₂_decodes (values : List Int16) :
    List.Forall₂ Outline.Decodes ((values.map literalArgument).map Argument.literal) values := by
  rw [List.forall₂_map_left_iff, List.forall₂_map_left_iff, List.forall₂_same]
  exact fun n _ ↦ Literal.value_ofInt n

theorem item_means {token : Token} (hcanonical : token.Canonical) :
    token.item.outline.Means [some token] := by
  cases token with
  | text content =>
    obtain ⟨hne, hchars⟩ := hcanonical
    have hfeed : '\n' ∉ content.toList := fun hmem ↦ hchars _ hmem (by simp)
    have hmarks : Outline.runMarks content.toList = [some (.text content)] := by
      rw [Outline.runMarks, stripNewlines_eq_self hfeed, if_neg (by simpa using hne),
        String.ofList_toList]
    rw [← hmarks]
    exact .run content.toList
  | newLine => exact .tag (.newLine (Or.inl rfl))
  | function table index arguments =>
    exact .tag (.call (Or.inl rfl) (forall₂_decodes (table :: index :: arguments)))

/-- The tokens of a line join those that are already there. -/
theorem meansBehind_tokens (begun : List Token) {tokens : List Token} {rest : Outline.Text}
    {lines : List Line} (htokens : ∀ token ∈ tokens, token.Canonical)
    (hrest : rest.MeansBehind ((begun ++ tokens).map some) lines) :
    Outline.Text.MeansBehind (begun.map some)
      (TaggedText.outline (tokens.map Token.item) ++ rest) lines := by
  induction tokens generalizing begun with
  | nil =>
    rw [List.append_nil] at hrest
    exact hrest
  | cons token later ih =>
    obtain ⟨htoken, hlater⟩ := List.forall_mem_cons.mp htokens
    refine meansBehind_cons (item_means htoken) ?_
    have hshift : begun.map some ++ [some token] = (begun ++ [token]).map some := by simp
    rw [hshift]
    refine ih _ hlater ?_
    rw [List.append_assoc]
    exact hrest

/-- A line feed in front of a text means nothing. -/
theorem meansBehind_consPlain {before : List (Option Token)} {items : Outline.Text}
    {lines : List Line} (h : items.MeansBehind before lines) :
    (items.consPlain '\n').MeansBehind before lines := by
  have hfeed : ∀ text, Outline.runMarks ('\n' :: text) = Outline.runMarks text := by
    intro text
    have hstrip : stripNewlines ('\n' :: text) = stripNewlines text := rfl
    rw [Outline.runMarks, hstrip, Outline.runMarks]
  have halone : ∀ rest : Outline.Text, rest.MeansBehind before lines →
      Outline.Text.MeansBehind before (.run ['\n'] :: rest) lines := by
    intro rest hrest
    rw [meansBehind_run_iff, hfeed]
    exact (List.append_nil before).symm ▸ hrest
  cases items with
  | nil => exact halone [] h
  | cons first rest =>
    cases first with
    | tag t => exact halone _ h
    | run text =>
      rw [meansBehind_run_iff, ← hfeed, ← meansBehind_run_iff] at h
      exact h

theorem listedBody_means {lines : List Line} (hlines : ∀ line ∈ lines, line.Canonical) :
    (listedBody lines).outline.Means lines := by
  change (listedBody lines).outline.MeansBehind [] lines
  induction lines with
  | nil =>
    rw [listedBody, outline_consFeed]
    exact meansBehind_consPlain (meansBehind_nil_iff.mpr rfl)
  | cons line rest ih =>
    obtain ⟨hline, hrest⟩ := List.forall_mem_cons.mp hlines
    rw [listedBody, outline_consFeed, outline_append]
    refine meansBehind_consPlain (meansBehind_tokens [] hline.each ?_)
    refine meansBehind_cons (.tag (.endLine (Or.inl rfl))) ?_
    exact meansBehind_end_iff.mpr ⟨rest, ih hrest, rfl⟩

/-- A name line is the only line of its text, if it is not empty. -/
theorem nameLine_means {nameLine : Line} (hcanonical : nameLine.Canonical) :
    nameLine.items.outline.Means (if nameLine.isEmpty then [] else [nameLine]) := by
  have htokens : Outline.Text.MeansBehind [] (nameLine.items.outline ++ [])
      (Outline.cutLines (nameLine.tokens.map some)) :=
    meansBehind_tokens [] hcanonical.each (meansBehind_nil_iff.mpr rfl)
  rw [List.append_nil, cutLines_map_some] at htokens
  exact htokens

/-- The text of a name is short. -/
theorem shortName_items {nameLine : Line} (hcanonical : nameLine.Canonical) {lines : List Line}
    (hlines : nameLine.items.outline.Means lines) :
    lines.length ≤ 1 ∧ ∀ line ∈ lines, line.isEmpty = false := by
  rw [lines_eq_of_means hlines (nameLine_means hcanonical)]
  split_ifs with hempty
  · exact ⟨Nat.zero_le 1, List.forall_mem_nil _⟩
  · exact ⟨le_rfl, List.forall_mem_singleton.mpr (Bool.eq_false_iff.mpr hempty)⟩

theorem shortName_window {window : DialogueScript.Window} (hcanonical : window.Canonical) :
    window.tree.outline.ShortName := by
  cases window with
  | selection w => trivial
  | dialog w =>
    rintro name hname lines hlines
    obtain ⟨items, hitems, rfl⟩ := Option.map_eq_some_iff.mp hname
    obtain ⟨speaker, hspeaker, rfl⟩ := Option.map_eq_some_iff.mp hitems
    cases speaker with
    | named nameLine => exact shortName_items (hcanonical.speaker _ hspeaker) hlines
    | variablyNamed => exact (hcanonical.speaker _ hspeaker).elim

/-- A speaker comes back unless the name line is empty. -/
theorem speaker_means {speaker : Option Speaker}
    (hcanonical : ∀ who ∈ speaker, Speaker.Canonical who) :
    Outline.SpeakerMeans ((speaker.map Speaker.items).map TaggedText.outline)
      (speaker.filter (· ≠ .named ⟨[]⟩)) := by
  cases speaker with
  | none => exact .absent
  | some who =>
    cases who with
    | variablyNamed => exact (hcanonical .variablyNamed rfl).elim
    | named nameLine =>
      have hmeans := Outline.SpeakerMeans.present (nameLine_means (hcanonical _ rfl))
      obtain ⟨tokens⟩ := nameLine
      cases tokens with
      | nil => exact hmeans
      | cons token rest => exact hmeans

theorem window_means {window : DialogueScript.Window} (hcanonical : window.Canonical) :
    window.tree.outline.Means window.dropNameless := by
  cases window with
  | selection w =>
    have hmeans : Outline.Window.Means (.selection (some w.identifier.toList) _) _ :=
      .selection (listedBody_means hcanonical.lines)
    rw [String.ofList_toList] at hmeans
    exact hmeans
  | dialog w =>
    have hmeans : Outline.Window.Means (.dialog (some w.identifier.toList) _ _) _ :=
      .dialog (speaker_means hcanonical.speaker) (listedBody_means hcanonical.lines)
    rw [String.ofList_toList] at hmeans
    exact hmeans

theorem tree_means {script : Script} (hcanonical : script.Canonical) :
    script.tree.outline.Means script.formatVersion script.dropNameless := by
  refine ⟨?_, rfl, ?_⟩
  · intro hnil
    exact hcanonical.ne_nil (List.map_eq_nil_iff.mp (List.map_eq_nil_iff.mp hnil))
  · rw [Document.outline, Script.tree, List.forall₂_map_left_iff, List.forall₂_map_left_iff,
      Script.dropNameless, List.forall₂_map_right_iff, List.forall₂_same]
    exact fun window hwindow ↦ window_means (hcanonical.windows window hwindow)

/-! ### Compiling it -/

/-- The listing of a canonical script compiles to the script, but for speakers with an empty name
line, and warns once for every empty line. -/
theorem compileText_listingSource {script : Script} (hcanonical : script.Canonical) :
    (compileText script.formatVersion script.listingSource).value = some script.dropNameless ∧
      (compileText script.formatVersion script.listingSource).warnings =
        lineWarnings (script.windows.flatMap Window.lines) := by
  have hspelled := spelled_tree hcanonical
  have hparse : parse (Utf8.dropMark script.listingSource) = .ok script.tree.settle := by
    rw [← text_tree hcanonical, dropMark_text hspelled.1, parse_text hspelled]
  have hvalue : (script.tree.settle.script script.formatVersion).value =
      some script.dropNameless := by
    rw [value_script_iff, outline_settle]
    exact tree_means hcanonical
  have hcompile : compileText script.formatVersion script.listingSource =
      script.tree.settle.script script.formatVersion :=
    compileText_eq_script hparse hvalue
  have hshort : ∀ window ∈ script.tree.settle.outline, window.ShortName := by
    rw [outline_settle]
    intro outline houtline
    obtain ⟨window, hwindow, rfl⟩ := List.mem_map.mp houtline
    obtain ⟨compiled, hcompiled, rfl⟩ := List.mem_map.mp hwindow
    exact shortName_window (hcanonical.windows compiled hcompiled)
  have hlines : script.dropNameless.windows.flatMap Window.lines =
      script.windows.flatMap Window.lines := by
    rw [Script.dropNameless, List.flatMap_map]
    refine List.flatMap_congr fun window _ ↦ ?_
    cases window <;> rfl
  rw [hcompile, warnings_script hshort hvalue, hlines]
  exact ⟨hvalue, rfl⟩

/-- What a compiler makes of the listing of a script: it gives the script back, but for speakers
with an empty name line, and its events are traces and one warning for every empty line. -/
structure ListsBack (options : Options) (script : Script) : Prop where
  result : (compile options.formatVersion (.text script.listingSource)).result =
    .ok script.dropNameless
  passing : ∀ event ∈ (compile options.formatVersion (.text script.listingSource)).findings.map
    (·.toEvent options.channel), event.level = .info ∨ event.level = .warning
  warnings : (((compile options.formatVersion (.text script.listingSource)).findings.map
    (·.toEvent options.channel)).filter (·.level = .warning)).map Event.message =
      List.replicate ((script.windows.flatMap Window.lines).countP Line.isEmpty) "Empty line"

theorem listsBack_of_canonical {options : Options} {script : Script}
    (hcanonical : script.Canonical) (hversion : script.formatVersion = options.formatVersion) :
    ListsBack options script := by
  obtain ⟨hvalue, hwarnings⟩ := compileText_listingSource hcanonical
  rw [hversion] at hvalue hwarnings
  refine ⟨Step.result_conclude_eq_ok_iff.mpr hvalue, fun event hevent ↦ ?_, ?_⟩
  · obtain ⟨finding, hfinding, rfl⟩ := List.mem_map.mp hevent
    exact isPassing_of_ends (ends_compileText _ _) hvalue finding hfinding
  · rw [List.filter_map, List.map_map]
    exact hwarnings

/-- Dropping speakers with an empty name line leaves a script canonical. -/
theorem Script.Canonical.dropNameless {script : Script} (hcanonical : script.Canonical) :
    script.dropNameless.Canonical := by
  refine ⟨fun hnil ↦ hcanonical.ne_nil (List.map_eq_nil_iff.mp hnil), fun window hwindow ↦ ?_⟩
  obtain ⟨original, horiginal, rfl⟩ := List.mem_map.mp hwindow
  have hwindow := hcanonical.windows original horiginal
  cases original with
  | selection w => exact hwindow
  | dialog w =>
    exact ⟨hwindow.identifier, fun speaker hspeaker ↦
      hwindow.speaker speaker (Option.eq_some_of_filter_eq_some hspeaker), hwindow.lines⟩

/-- Dropping speakers with an empty name line a second time changes nothing. -/
theorem dropNameless_dropNameless (script : Script) :
    script.dropNameless.dropNameless = script.dropNameless := by
  have hwindow : ∀ window : DialogueScript.Window,
      window.dropNameless.dropNameless = window.dropNameless := by
    intro window
    cases window with
    | selection w => rfl
    | dialog w =>
      simp only [Window.dropNameless, DialogWindow.dropNameless, Option.filter_filter,
        Bool.and_self]
  simp only [Script.dropNameless, List.map_map, Function.comp_def, hwindow]

/-- A canonical script is given back by its listing, but for speakers with an empty name line. So
every script that a source compiles to is given back, and listing what came back gives it back
without a difference. -/
theorem recompile_listing (options : Options) :
    (∀ script : Script, script.Canonical → script.formatVersion = options.formatVersion →
      ListsBack options script) ∧
    ∀ (source : Source) (script : Script),
      (compile options.formatVersion source).result = .ok script →
        ListsBack options script ∧
        (compile options.formatVersion (.text script.dropNameless.listingSource)).result =
          .ok script.dropNameless := by
  refine ⟨fun script ↦ listsBack_of_canonical, fun source script hresult ↦ ?_⟩
  obtain ⟨hcanonical, hversion⟩ := canonical_of_tryCompile (result_compile_eq_ok_iff.mp hresult)
  refine ⟨listsBack_of_canonical hcanonical hversion, ?_⟩
  have hagain := (listsBack_of_canonical hcanonical.dropNameless hversion).result
  rwa [dropNameless_dropNameless] at hagain

/-- A speaker whose name line is empty, a negative number, an empty line and an empty window. -/
theorem recompile_listing_nameless :
    ∃ script : Script,
      (compile .v1 (.text "[dlg a [<e>]]<f -1 0x2>\rx<e>\n<e>[sel b]".toList)).result =
        .ok script ∧
      script.Canonical ∧
      ListsBack ⟨.v1, "script"⟩ script ∧
      script.listingSource = "[dlg a []]\n<f -1 2>\rx<e>\n<e>\n[sel b]\n".toList ∧
      script.dropNameless ≠ script ∧
      (compile .v1 (.text script.dropNameless.listingSource)).result =
        .ok script.dropNameless := by
  have hresult : (compile .v1
      (.text "[dlg a [<e>]]<f -1 0x2>\rx<e>\n<e>[sel b]".toList)).result =
        .ok ⟨.v1, [.dialog ⟨"a", some (.named ⟨[]⟩), [⟨[.function (-1) 2 [], .text "\rx"]⟩, ⟨[]⟩]⟩,
          .selection ⟨"b", []⟩]⟩ := by cbv
  have hcanonical := (canonical_of_tryCompile (result_compile_eq_ok_iff.mp hresult)).1
  have hback := (recompile_listing ⟨.v1, "script"⟩).1 _ hcanonical rfl
  have hagain := ((recompile_listing ⟨.v1, "script"⟩).2 _ _ hresult).2
  exact ⟨_, hresult, hcanonical, hback, by cbv, by decide, hagain⟩

end DialogueScript
