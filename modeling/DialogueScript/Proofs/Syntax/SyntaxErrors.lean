import DialogueScript.Proofs.Syntax.Blame
import DialogueScript.Proofs.Syntax.Completeness
import DialogueScript.Proofs.Syntax.Decomposition

/-!
# Where a syntax error is reported

A syntax error is never reported behind the fault. Whatever a parser of the grammar tries, the text
in front of it can be extended to a script (`Viable`). This goes down the grammar: where a construct
may stand (`Admits`), its parts may stand behind each other, since what has been read of it can be
closed at any time. So each rule that fails does so behind a viable text, and the end of the source
fails only behind a script (`blames_document`).

`syntax_error_placed` draws the conclusion for the furthest failure, which is where an error is
reported, and for the rules that its message names.
-/

set_option autoImplicit false
set_option relaxedAutoImplicit false

namespace DialogueScript.Syntax

/-! ### Texts that can be gone on with -/

/-- A text can be extended to a script. -/
def Viable (text : List Char) : Prop :=
  ∃ more, text ++ more ∈ Spelling.script

/-- Behind a text any word of a language may stand. -/
def Admits (front : List Char) (language : Language Char) : Prop :=
  ∀ word ∈ language, Viable (front ++ word)

/-- A rule is expected behind a text rightly: the text can be extended to a script, and is one if
the end of the source is expected. -/
def Expectable (rule : Rule) (text : List Char) : Prop :=
  Viable text ∧ (rule = .endOfInput → text ∈ Spelling.script)

theorem viable_of_append {text more : List Char} (h : Viable (text ++ more)) : Viable text := by
  obtain ⟨rest, hrest⟩ := h
  exact ⟨more ++ rest, by rwa [← List.append_assoc]⟩

/-- A text is viable if it is the beginning of what may stand. -/
theorem Admits.viable {front text word : List Char} {language : Language Char}
    (h : Admits front language) (hword : word ∈ language) (more : List Char)
    (hsplit : front ++ word = text ++ more) : Viable text :=
  viable_of_append (hsplit ▸ h word hword)

/-! ### Trees and the language -/

theorem text_mem_tag {tag : Tag} (h : tag.Spelled) : tag.text ∈ Spelling.tag :=
  (mem_tag_iff _).mpr ⟨tag.outline, h.2, (mem_tag_spellings_iff _ _).mpr ⟨tag, h.1, rfl, rfl⟩⟩

theorem exists_spelled_of_mem {word : List Char} (h : word ∈ Spelling.taggedText) :
    ∃ items : TaggedText, items.Spelled ∧ items.text = word := by
  obtain ⟨outline, hwell, hspelling⟩ := (mem_taggedText_iff word).mp h
  obtain ⟨items, hspaced, rfl, htext⟩ := (mem_text_spellings_iff outline word).mp hspelling
  exact ⟨items, ⟨hspaced, hwell⟩, htext⟩

theorem text_mem_window {window : Window} (h : window.Spelled) : window.text ∈ Spelling.window :=
  (mem_window_iff _).mpr
    ⟨window.outline, h.2, (mem_window_spellings_iff _ _).mpr ⟨window, h.1, rfl, rfl⟩⟩

theorem exists_window_of_mem {word : List Char} (h : word ∈ Spelling.window) :
    ∃ window : Window, window.Spelled ∧ window.text = word := by
  obtain ⟨outline, hwell, hspelling⟩ := (mem_window_iff word).mp h
  obtain ⟨window, hspaced, rfl, htext⟩ := (mem_window_spellings_iff outline word).mp hspelling
  exact ⟨window, ⟨hspaced, hwell⟩, htext⟩

theorem text_mem_script {document : Document} (h : document.Spelled) :
    document.text ∈ Spelling.script :=
  mem_script_iff.mpr ⟨document.outline, h.2, mem_spellings_iff.mpr ⟨document, h.1, rfl, rfl⟩⟩

/-- A script is read. -/
theorem exists_parse_of_mem_script {source : List Char} (h : source ∈ Spelling.script) :
    ∃ document, parse source = .ok document := by
  obtain ⟨outline, hwell, hspelling⟩ := mem_script_iff.mp h
  obtain ⟨tree, hspaced, rfl, rfl⟩ := mem_spellings_iff.mp hspelling
  exact ⟨tree.settle, parse_text ⟨hspaced, hwell⟩⟩

open DialogueScript.Syntax.Parser
open scoped Computability

section Constructs

variable {front rest : List Char}

/-! ### Tags -/

/-- Assumes: a construct is looked for behind a viable text. Its rule is expected there rightly. -/
theorem blames_attempt {α : Type} {rule : Rule} {parser : Parser α} (hviable : Viable front)
    (hrule : rule ≠ .endOfInput) (h : Blames Expectable parser front rest) :
    Blames Expectable (attempt rule parser) front rest :=
  .attempt ⟨hviable, fun hend ↦ absurd hend hrule⟩ h

/-- A word tries no rules but its own. -/
theorem blames_word {α : Type} {rule : Rule} {parser : Parser α} (hquiet : Quiet parser)
    (hviable : Viable front) (hrule : rule ≠ .endOfInput) :
    Blames Expectable (attempt rule parser) front rest :=
  blames_attempt hviable hrule (hquiet.blames front rest)

theorem blames_tagId (h : Viable front) : Blames Expectable Grammar.tagId front rest :=
  blames_word ((Quiet.one _).bind fun _ ↦ (Quiet.span _).bind fun _ ↦ Quiet.pure _) h (by decide)

theorem blames_literal (h : Viable front) : Blames Expectable Grammar.literal front rest :=
  blames_word ((Quiet.one _).optional.bind fun _ ↦ (Quiet.one _).bind fun _ ↦
    (Quiet.span _).bind fun _ ↦ Quiet.pure _) h (by decide)

/-- A literal is expected behind spacing. -/
theorem blames_argument (h : ∀ gap ∈ Spelling.gap, Viable (front ++ gap)) :
    Blames Expectable Grammar.argument front rest := by
  refine .bind_quiet (reads_span1 _) (.span1 _) fun gap later hgap _ ↦ ?_
  refine .bind (.of id (· ∈ Spelling.literal) reads_of_literal)
    (blames_literal (h gap (Spelling.mem_gap.mpr hgap))) fun literal later _ _ ↦ ?_
  exact (Quiet.pure _).blames _ _

/-- Where no spacing stands no literal is looked for. -/
theorem blames_args_of_stops (h : Stops isSpacing rest) :
    Blames Expectable (many Grammar.argument) front rest := by
  refine .many_of_refuses (Refuses.bind_first (Refuses.span1 h)) ?_
  refine .bind_quiet (reads_span1 _) (.span1 _) fun gap later hgap hrest ↦ ?_
  obtain ⟨hne, hspacing⟩ := hgap
  obtain ⟨c, more, rfl⟩ := List.exists_cons_of_ne_nil hne
  rw [hrest] at h
  exact absurd ((stops_cons isSpacing c _).mp h) (by simp [hspacing c])

theorem spelled_tag {lead tail : List Char} {id : Option (List Char)} {args : List Argument}
    (hlead : lead ∈ Spelling.spacing) (hid : ∀ word ∈ id, word ∈ Spelling.tagId)
    (hargs : ∀ argument ∈ args, argument.gap ∈ Spelling.gap ∧ argument.literal ∈ Spelling.literal)
    (hnone : id = none → args = []) (htail : tail ∈ Spelling.spacing) :
    (Tag.mk lead id args tail).Spelled := by
  refine ⟨⟨hlead, fun a ha ↦ (hargs a ha).1, htail⟩, hid, fun literal hliteral ↦ ?_, fun hid ↦ ?_⟩
  · obtain ⟨argument, hargument, rfl⟩ := List.mem_map.mp hliteral
    exact (hargs argument hargument).2
  · exact congrArg (List.map Argument.literal) (hnone hid)

/-- Assumes: a tag may stand behind a text. Its id is expected behind its bracket and spacing, and a
literal behind spacing if there is an id. -/
theorem blames_tag (h : Admits front Spelling.tag) (rest : List Char) :
    Blames Expectable Grammar.tag front rest := by
  have hopen : ∀ {lead : List Char}, lead ∈ Spelling.spacing → Viable (front ++ ['<'] ++ lead) := by
    intro lead hlead
    have hspelled : (Tag.mk lead none [] []).Spelled :=
      spelled_tag hlead (by simp) (by simp) (fun _ ↦ rfl) (Language.nil_mem_kstar _)
    exact h.viable (text_mem_tag hspelled) ['>'] (by simp [Tag.text, Tag.beforeArgs, Tag.beforeId])
  have hfront : Viable front :=
    viable_of_append (viable_of_append (hopen (Language.nil_mem_kstar _)))
  refine blames_attempt hfront (by decide) ?_
  refine .bind_quiet (reads_char '<') (.char _) fun _ later _ _ ↦ ?_
  refine .bind_quiet (reads_span _) (.span _) fun lead later hlead _ ↦ ?_
  obtain ⟨hspacing, hstops⟩ := hlead
  have hleadMem : lead ∈ Spelling.spacing := Spelling.mem_spacing.mpr hspacing
  refine .bind (Reads.of id (· ∈ Spelling.tagId) reads_of_tagId).optional
    (blames_tagId (hopen hleadMem)).optional fun word behind hword hrest ↦ ?_
  have hargs : Blames Expectable (many Grammar.argument)
      (front ++ ['<'] ++ lead ++ (word.map id).getD []) behind := by
    cases word with
    | none =>
      -- the spacing in front of an id leaves none for a literal
      rw [show later = behind from hrest] at hstops
      exact blames_args_of_stops hstops
    | some word =>
      refine .many (.of Argument.text _ reads_of_argument) (fun args after hargs ↦ ?_) behind
      refine blames_argument fun gap hgap ↦ ?_
      have hspelled : (Tag.mk lead (some word) args gap).Spelled :=
        spelled_tag hleadMem hword hargs (by simp)
          (Spelling.mem_spacing.mpr (Spelling.mem_gap.mp hgap).2)
      exact h.viable (text_mem_tag hspelled) ['>']
        (by simp [Tag.text, Tag.beforeArgs, Tag.beforeId])
  refine .bind (Reads.of Argument.text _ reads_of_argument).many hargs fun args after _ _ ↦ ?_
  exact ((Quiet.span _).bind fun _ ↦ (Quiet.char _).bind fun _ ↦ Quiet.pure _).blames _ _

/-! ### Texts -/

/-- A text with tags goes on behind another one. -/
theorem append_mem_taggedText {first second : List Char} (hfirst : first ∈ Spelling.taggedText)
    (hsecond : second ∈ Spelling.taggedText) : first ++ second ∈ Spelling.taggedText := by
  have hboth := Language.append_mem_mul hfirst hsecond
  rwa [Spelling.taggedText, kstar_mul_kstar] at hboth

theorem nil_mem_taggedText : [] ∈ Spelling.taggedText :=
  Language.nil_mem_kstar _

theorem flatMap_text_mem_taggedText {items : TaggedText} (h : ∀ item ∈ items, item.Spelled) :
    items.flatMap Item.text ∈ Spelling.taggedText := by
  induction items with
  | nil => exact nil_mem_taggedText
  | cons item later ih =>
    obtain ⟨hitem, hlater⟩ := List.forall_mem_cons.mp h
    exact append_mem_taggedText (spellings_item_le hitem.2
      ((mem_item_spellings_iff _ _).mpr ⟨item, hitem.1, rfl, rfl⟩)) (ih hlater)

theorem blames_run (h : Viable front) : Blames Expectable Grammar.run front rest :=
  blames_word (Quiet.span1 _) h (by decide)

/-- Assumes: a text with tags may stand behind a text. So may a tag or a run. -/
theorem blames_item (h : Admits front Spelling.taggedText) (rest : List Char) :
    Blames Expectable Grammar.item front rest := by
  have htag : Admits front Spelling.tag := fun word hword ↦
    h word ((le_kstar : _ ≤ Spelling.taggedText) (Or.inr hword))
  have hfront : Viable front := viable_of_append (h [] nil_mem_taggedText)
  refine .orElse (.bind (.of Tag.text _ reads_of_tag) (blames_tag htag rest) fun _ _ _ _ ↦
    (Quiet.pure _).blames _ _) ?_
  exact .bind ((reads_span1 _).attempt .text) (blames_run hfront) fun _ _ _ _ ↦
    (Quiet.pure _).blames _ _

/-- Assumes: a text with tags may stand behind a text. Each of its pieces leaves room for more. -/
theorem blames_taggedText (h : Admits front Spelling.taggedText) (rest : List Char) :
    Blames Expectable Grammar.taggedText front rest := by
  have hfront : Viable front := viable_of_append (h [] nil_mem_taggedText)
  refine blames_attempt hfront (by decide) ?_
  refine .many (.of Item.text Item.Spelled fun hitem ↦ (reads_of_item hitem).imp_left And.left)
    (fun items later hitems ↦ blames_item (fun word hword ↦ ?_) later) rest
  rw [List.append_assoc]
  exact h _ (append_mem_taggedText (flatMap_text_mem_taggedText hitems) hword)

/-- Assumes: a speaker name may stand behind a text. So may the text of a name behind a bracket. -/
theorem blames_speaker (h : Admits front Spelling.speaker) (rest : List Char) :
    Blames Expectable Grammar.speaker front rest := by
  have hname : Admits (front ++ ['[']) Spelling.taggedText := fun word hword ↦ by
    have hspeaker : '[' :: word ++ [']'] ∈ Spelling.speaker :=
      Language.append_mem_mul (Language.append_mem_mul (Spelling.self_mem_singleton ['[']) hword)
        (Spelling.self_mem_singleton [']'])
    exact h.viable hspeaker [']'] (by simp)
  have hfront : Viable front :=
    viable_of_append (viable_of_append (hname [] nil_mem_taggedText))
  refine blames_attempt hfront (by decide) ?_
  refine .bind_quiet (reads_char '[') (.char _) fun _ later _ _ ↦ ?_
  refine .bind (.of TaggedText.text _ reads_of_taggedText) (blames_taggedText hname later)
    fun _ _ _ _ ↦ ?_
  exact ((Quiet.char _).bind fun _ ↦ Quiet.pure _).blames _ _

/-! ### Windows -/

/-- An identifier is expected behind spacing. -/
theorem blames_label (h : ∀ gap ∈ Spelling.gap, Viable (front ++ gap)) :
    Blames Expectable Grammar.label front rest := by
  refine .bind_quiet (reads_span1 _) (.span1 _) fun gap later hgap _ ↦ ?_
  refine .bind (.of id (· ∈ Spelling.identifier) reads_of_identifier) (blames_word
    ((Quiet.one _).bind fun _ ↦ (Quiet.span _).bind fun _ ↦ Quiet.pure _)
      (h gap (Spelling.mem_gap.mpr hgap)) (by decide)) fun _ _ _ _ ↦ ?_
  exact (Quiet.pure _).blames _ _

theorem reads_label : Reads Grammar.label Label.text fun label _ ↦
    label.gap ∈ Spelling.gap ∧ label.identifier ∈ Spelling.identifier :=
  .of _ _ reads_of_label

theorem reads_keyword {word : List Char} (hword : ∀ c ∈ word, c.isLower = true) :
    Reads (keyword word) id fun text _ ↦ text ∈ Spelling.anyCase word :=
  .of id _ (reads_of_anyCase hword)

theorem exists_speaker_of_mem {word : List Char} (h : word ∈ Spelling.speaker) :
    ∃ name : TaggedText, name.Spelled ∧ speakerText name = word := by
  obtain ⟨opened, hopened, close, rfl, rfl⟩ := Language.mem_mul.mp h
  obtain ⟨text, htext, rfl⟩ := Spelling.mem_singleton_mul.mp hopened
  obtain ⟨name, hname, rfl⟩ := exists_spelled_of_mem htext
  exact ⟨name, hname, rfl⟩

theorem spelled_nil : TaggedText.Spelled [] :=
  ⟨by simp [TaggedText.Spaced], ⟨by simp [TaggedText.outline], .nil⟩⟩

theorem spelled_dialog {lead keyword gap tail : List Char} {label : Option Label}
    {speaker : Option TaggedText} {body : TaggedText} (hlead : ∀ c ∈ lead, isSpacing c = true)
    (hkeyword : keyword ∈ Spelling.anyCase ['d', 'l', 'g'])
    (hlabel : ∀ l ∈ label, l.gap ∈ Spelling.gap ∧ l.identifier ∈ Spelling.identifier)
    (hgap : ∀ c ∈ gap, isSpacing c = true) (hspeaker : ∀ name ∈ speaker, TaggedText.Spelled name)
    (htail : ∀ c ∈ tail, isSpacing c = true) (hbody : body.Spelled) :
    (Window.dialog ⟨lead, keyword, label, gap, speaker, tail, body⟩).Spelled := by
  refine ⟨⟨Spelling.mem_spacing.mpr hlead, hkeyword, fun l hl ↦ (hlabel l hl).1,
    Spelling.mem_spacing.mpr hgap, fun name hname ↦ (hspeaker name hname).1,
    Spelling.mem_spacing.mpr htail, hbody.1⟩, fun word hword ↦ ?_, fun name hname ↦ ?_, hbody.2⟩
  · obtain ⟨l, hl, rfl⟩ := Option.map_eq_some_iff.mp hword
    exact (hlabel l hl).2
  · obtain ⟨items, hitems, rfl⟩ := Option.map_eq_some_iff.mp hname
    exact (hspeaker items hitems).2

theorem spelled_selection {lead keyword tail : List Char} {label : Option Label}
    {body : TaggedText} (hlead : ∀ c ∈ lead, isSpacing c = true)
    (hkeyword : keyword ∈ Spelling.anyCase ['s', 'e', 'l'])
    (hlabel : ∀ l ∈ label, l.gap ∈ Spelling.gap ∧ l.identifier ∈ Spelling.identifier)
    (htail : ∀ c ∈ tail, isSpacing c = true) (hbody : body.Spelled) :
    (Window.selection ⟨lead, keyword, label, tail, body⟩).Spelled := by
  refine ⟨⟨Spelling.mem_spacing.mpr hlead, hkeyword, fun l hl ↦ (hlabel l hl).1,
    Spelling.mem_spacing.mpr htail, hbody.1⟩, fun word hword ↦ ?_, hbody.2⟩
  obtain ⟨l, hl, rfl⟩ := Option.map_eq_some_iff.mp hword
  exact (hlabel l hl).2

theorem text_dialog (lead keyword gap tail : List Char) (label : Option Label)
    (speaker : Option TaggedText) (body : TaggedText) :
    (Window.dialog ⟨lead, keyword, label, gap, speaker, tail, body⟩).text =
      ['['] ++ lead ++ keyword ++ (label.map Label.text).getD [] ++ gap ++
        (speaker.map speakerText).getD [] ++ tail ++ [']'] ++ body.text := by
  simp [Window.text, Dialog.text, Dialog.header, Dialog.beforeSpeaker, Dialog.beforeLabel]

theorem text_selection (lead keyword tail : List Char) (label : Option Label)
    (body : TaggedText) :
    (Window.selection ⟨lead, keyword, label, tail, body⟩).text =
      ['['] ++ lead ++ keyword ++ (label.map Label.text).getD [] ++ tail ++ [']'] ++
        body.text := by
  simp [Window.text, Selection.text, Selection.header, Selection.beforeLabel]

/-- Assumes: a window may stand behind a text. So may its beginning. -/
theorem viable_of_admits_window (h : Admits front Spelling.window) : Viable front := by
  have hkeyword : ['d', 'l', 'g'] ∈ Spelling.anyCase ['d', 'l', 'g'] :=
    (Spelling.mem_anyCase Spelling.isLower_dlg).mpr (by decide)
  have hspelled : (Window.dialog ⟨[], ['d', 'l', 'g'], none, [], none, [], []⟩).Spelled :=
    spelled_dialog (List.forall_mem_nil _) hkeyword (by simp) (List.forall_mem_nil _) (by simp)
      (List.forall_mem_nil _) spelled_nil
  exact viable_of_append (h _ (text_mem_window hspelled))

/-- Assumes: a window may stand behind a text. In the header of a dialog window an identifier or a
speaker may be missing, and its text goes on as any text does. -/
theorem blames_dialog (h : Admits front Spelling.window) (rest : List Char) :
    Blames Expectable Grammar.dialog front rest := by
  refine blames_attempt (viable_of_admits_window h) (by decide) ?_
  refine .bind_quiet (reads_char '[') (.char _) fun _ _ _ _ ↦ ?_
  refine .bind_quiet (reads_span _) (.span _) fun lead _ ⟨hlead, _⟩ _ ↦ ?_
  refine .bind_quiet (reads_keyword Spelling.isLower_dlg) (.keyword _) fun keyword _ hkeyword _ ↦ ?_
  refine .bind reads_label.optional (blames_label fun gap hgap ↦ ?_).optional
    fun label _ hlabel _ ↦ ?_
  · have hspelled : (Window.dialog ⟨lead, keyword, none, gap, none, [], []⟩).Spelled :=
      spelled_dialog hlead hkeyword (by simp) (Spelling.mem_gap.mp hgap).2 (by simp)
        (List.forall_mem_nil _) spelled_nil
    exact h.viable (text_mem_window hspelled) [']'] (by simp [text_dialog, TaggedText.text])
  refine .bind_quiet (reads_span _) (.span _) fun gap _ ⟨hgap, _⟩ _ ↦ ?_
  refine .bind (Reads.of speakerText _ reads_of_speaker).optional
    (blames_speaker (fun word hword ↦ ?_) _).optional fun speaker _ hspeaker _ ↦ ?_
  · obtain ⟨name, hname, rfl⟩ := exists_speaker_of_mem hword
    have hspelled : (Window.dialog ⟨lead, keyword, label, gap, some name, [], []⟩).Spelled :=
      spelled_dialog hlead hkeyword hlabel hgap (fun _ hmem ↦ Option.some.inj hmem ▸ hname)
        (List.forall_mem_nil _) spelled_nil
    exact h.viable (text_mem_window hspelled) [']'] (by simp [text_dialog, TaggedText.text])
  refine .bind_quiet (reads_span _) (.span _) fun tail _ ⟨htail, _⟩ _ ↦ ?_
  refine .bind_quiet (reads_char ']') (.char _) fun _ _ _ _ ↦ ?_
  refine .bind (.of TaggedText.text _ reads_of_taggedText)
    (blames_taggedText (fun word hword ↦ ?_) _) fun _ _ _ _ ↦ (Quiet.pure _).blames _ _
  obtain ⟨body, hbody, rfl⟩ := exists_spelled_of_mem hword
  have hspelled : (Window.dialog ⟨lead, keyword, label, gap, speaker, tail, body⟩).Spelled :=
    spelled_dialog hlead hkeyword hlabel hgap hspeaker htail hbody
  exact h.viable (text_mem_window hspelled) [] (by simp [text_dialog])

/-- Assumes: a window may stand behind a text. In the header of a selection window an identifier may
be missing, and its text goes on as any text does. -/
theorem blames_selection (h : Admits front Spelling.window) (rest : List Char) :
    Blames Expectable Grammar.selection front rest := by
  refine blames_attempt (viable_of_admits_window h) (by decide) ?_
  refine .bind_quiet (reads_char '[') (.char _) fun _ _ _ _ ↦ ?_
  refine .bind_quiet (reads_span _) (.span _) fun lead _ ⟨hlead, _⟩ _ ↦ ?_
  refine .bind_quiet (reads_keyword Spelling.isLower_sel) (.keyword _) fun keyword _ hkeyword _ ↦ ?_
  refine .bind reads_label.optional (blames_label fun gap hgap ↦ ?_).optional
    fun label _ hlabel _ ↦ ?_
  · have hspelled : (Window.selection ⟨lead, keyword, none, gap, []⟩).Spelled :=
      spelled_selection hlead hkeyword (by simp) (Spelling.mem_gap.mp hgap).2 spelled_nil
    exact h.viable (text_mem_window hspelled) [']'] (by simp [text_selection, TaggedText.text])
  refine .bind_quiet (reads_span _) (.span _) fun tail _ ⟨htail, _⟩ _ ↦ ?_
  refine .bind_quiet (reads_char ']') (.char _) fun _ _ _ _ ↦ ?_
  refine .bind (.of TaggedText.text _ reads_of_taggedText)
    (blames_taggedText (fun word hword ↦ ?_) _) fun _ _ _ _ ↦ (Quiet.pure _).blames _ _
  obtain ⟨body, hbody, rfl⟩ := exists_spelled_of_mem hword
  have hspelled : (Window.selection ⟨lead, keyword, label, tail, body⟩).Spelled :=
    spelled_selection hlead hkeyword hlabel htail hbody
  exact h.viable (text_mem_window hspelled) [] (by simp [text_selection])

theorem blames_window (h : Admits front Spelling.window) (rest : List Char) :
    Blames Expectable Grammar.window front rest := by
  refine blames_attempt (viable_of_admits_window h) (by decide) (.orElse ?_ ?_)
  · exact .bind (.of Dialog.text _ reads_of_dialog) (blames_dialog h rest) fun _ _ _ _ ↦
      (Quiet.pure _).blames _ _
  · exact .bind (.of Selection.text _ reads_of_selection) (blames_selection h rest)
      fun _ _ _ _ ↦ (Quiet.pure _).blames _ _

end Constructs

/-! ### Sources -/

/-- A window may stand behind the windows of a script, and so may the end of the source. -/
theorem blames_document (source : List Char) : Blames Expectable Grammar.document [] source := by
  have hscript : ∀ {blanks : List Char} {windows : List Window},
      (∀ c ∈ blanks, isBlank c = true) → (∀ window ∈ windows, window.Spelled) →
        blanks ++ windows.flatMap Window.text ∈ Spelling.script := by
    intro blanks windows hblanks hwindows
    have hspelled : (Document.mk blanks windows).Spelled :=
      spelled_document_iff.mpr ⟨Spelling.mem_blanks.mpr hblanks, hwindows⟩
    exact text_mem_script hspelled
  have hempty : Viable [] :=
    ⟨[], hscript (List.forall_mem_nil _) (List.forall_mem_nil _)⟩
  refine blames_attempt hempty (by decide) ?_
  refine .bind_quiet (reads_span _) (.span _) fun blanks later ⟨hblanks, _⟩ _ ↦ ?_
  refine .bind (Reads.of Window.text _ reads_of_window).many
    (.many (.of Window.text _ reads_of_window) (fun windows _ hwindows ↦ ?_) later)
    fun windows _ hwindows _ ↦ ?_
  · refine blames_window (fun word hword ↦ ?_) _
    obtain ⟨window, hwindow, rfl⟩ := exists_window_of_mem hword
    have hmore := hscript hblanks
      (List.forall_mem_append.mpr ⟨hwindows, List.forall_mem_singleton.mpr hwindow⟩)
    exact ⟨[], by simpa using hmore⟩
  · have hall : [] ++ id blanks ++ windows.flatMap Window.text ∈ Spelling.script :=
      hscript hblanks hwindows
    refine .bind (.of (fun _ ↦ []) (fun _ ↦ True) fun h ↦ ?_)
      (.attempt ⟨⟨[], by rwa [List.append_nil]⟩, fun _ ↦ hall⟩ (Quiet.atEnd.blames _ _))
      fun _ _ _ _ ↦ (Quiet.pure _).blames _ _
    obtain ⟨_, rfl⟩ := result_atEnd_eq_some_iff.mp h
    exact ⟨trivial, Cursor.Reads.refl _⟩

/-! ### Errors -/

/-- A text holds the names of rules in their order, with a word between each two of them. -/
def SyntaxError.Enumerates : List Rule → String → Prop
  | [], text => text = ""
  | [rule], text => text = rule.name
  | rule :: next :: rest, text => ∃ word later, word ∈ [", ", " or ", ", or "] ∧
      Enumerates (next :: rest) later ∧ text = rule.name ++ word ++ later

theorem enumerates_commas {rules : List Rule} (hne : rules ≠ []) (last : Rule) :
    SyntaxError.Enumerates (rules ++ [last])
      (", ".intercalate (rules.map Rule.name) ++ ", or " ++ last.name) := by
  induction rules with
  | nil => exact absurd rfl hne
  | cons rule rest ih =>
    cases rest with
    | nil => exact ⟨", or ", last.name, by simp, rfl, by simp⟩
    | cons next more =>
      refine ⟨", ", _, by simp, ih (List.cons_ne_nil next more), ?_⟩
      simp only [List.map_cons, String.intercalate_cons_cons, String.append_assoc]

/-- The wording of an error enumerates its rules, however many there are. -/
theorem enumerates_enumerate (rules : List Rule) :
    SyntaxError.Enumerates rules (SyntaxError.enumerate rules) := by
  match rules with
  | [] => rfl
  | [rule] => rfl
  | [first, second] => exact ⟨" or ", second.name, by simp, rfl, rfl⟩
  | first :: second :: third :: rest =>
    have hne : first :: second :: third :: rest ≠ [] := List.cons_ne_nil _ _
    have hinit : (first :: second :: third :: rest).dropLast ≠ [] := by simp
    have hcommas := enumerates_commas hinit ((first :: second :: third :: rest).getLast hne)
    rw [List.dropLast_append_getLast hne] at hcommas
    rw [SyntaxError.enumerate, List.getLast?_eq_some_getLast hne]
    · exact hcommas
    all_goals simp

theorem name_injective : Function.Injective Rule.name := by
  intro first second h
  cases first <;> cases second <;> first | rfl | exact absurd h (by decide)

/-- An error of a source is placed behind some of its characters. -/
structure SyntaxError.PlacedBehind (source : List Char) (p : Nat) (error : SyntaxError) :
    Prop where
  inside : p ≤ source.length
  position : error.position = Position.start.after (source.take p)
  /-- The characters in front of the place can be extended to a source that is read. -/
  viable : ∃ more document, parse (source.take p ++ more) = .ok document
  /-- The message names rules, and at least one. -/
  message : ∃ names, error.message = "expected " ++ names ∧
    SyntaxError.Enumerates error.expected names
  expected_ne_nil : error.expected ≠ []
  /-- No name comes twice. -/
  nodup : (error.expected.map Rule.name).Nodup
  /-- The names come in the order of the grammar. -/
  ordered : error.expected.Sublist Rule.all
  /-- If the end of the source is named, the characters in front of the place are read. -/
  ended : .endOfInput ∈ error.expected → ∃ document, parse (source.take p) = .ok document

/-- Assumes: a source is rejected. Its error is placed behind some of its characters, which can be
gone on with. -/
theorem syntax_error_placed {source : List Char} {error : SyntaxError}
    (h : parse source = .error error) : ∃ p, error.PlacedBehind source p := by
  have hblames : (Grammar.document ⟨0, source⟩).trail.Blames Expectable source :=
    blames_document source
  have hfair := Furthest.fair_start.follow hblames
  unfold parse at h
  dsimp only at h
  split at h
  · exact absurd h (by simp)
  · rename_i hfails
    obtain rfl := Except.error.inj h
    have hne : (Furthest.start.follow (Grammar.document ⟨0, source⟩).trail).rules ≠ [] :=
      Blames.rules_follow_attempt_ne_nil Furthest.fair_start hblames hfails
    generalize Furthest.start.follow (Grammar.document ⟨0, source⟩).trail = furthest at hfair hne ⊢
    obtain ⟨rule, hrule⟩ := List.exists_mem_of_ne_nil _ hne
    obtain ⟨hlength, ⟨more, hmore⟩, _⟩ := hfair.each rule hrule
    have hmem : ∀ other, other ∈ furthest.expected ↔ other ∈ furthest.rules := fun other ↦ by
      simp [Furthest.expected, Rule.mem_all]
    have hsublist : furthest.expected.Sublist Rule.all := List.filter_sublist
    exact ⟨furthest.offset, {
      inside := hlength
      position := rfl
      viable := ⟨more, exists_parse_of_mem_script hmore⟩
      message := ⟨_, rfl, enumerates_enumerate _⟩
      expected_ne_nil := List.ne_nil_of_mem ((hmem rule).mpr hrule)
      nodup := (Rule.nodup_all.sublist hsublist).map name_injective
      ordered := hsublist
      ended := fun hend ↦
        exists_parse_of_mem_script ((hfair.each _ ((hmem _).mp hend)).2.2 rfl) }⟩

/-- A bracket that nothing opens. In front of it stands a script, so the end of the source is
expected there. -/
theorem syntax_error_placed_stray : ∃ error,
    parse "[sel a]x\ny]z".toList = .error error ∧
      (∃ p, error.PlacedBehind "[sel a]x\ny]z".toList p) ∧
      error = ⟨[.endOfInput, .messageWindow, .tag, .text], ⟨2, 2⟩⟩ := by
  have hparse : parse "[sel a]x\ny]z".toList =
      .error ⟨[.endOfInput, .messageWindow, .tag, .text], ⟨2, 2⟩⟩ := by cbv
  exact ⟨_, hparse, syntax_error_placed hparse, rfl⟩

end DialogueScript.Syntax
