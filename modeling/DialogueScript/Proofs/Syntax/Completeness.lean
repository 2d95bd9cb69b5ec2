import DialogueScript.Proofs.Syntax.Soundness

/-!
# Spelled trees are parsed

The parser reads the text of every tree of the grammar (`parse_text`). It gives the tree back with
its spacing settled: where two stretches of spacing touch, because the id of a tag or the speaker of
a window between them is absent, the first one takes all of it (`Document.settle`). The outline of
the tree stays the same (`outline_settle`).

For every rule a theorem says that its parser takes the text of its value in front of a rest. Greedy
parsers need to know that the rest cannot be part of what they read. Behind a text with tags this is
`EndsText`, behind the label of a window `EndsLabel`.
-/

set_option autoImplicit false
set_option relaxedAutoImplicit false

namespace DialogueScript.Syntax

open DialogueScript.Syntax.Parser

/-! ### Settled spacing -/

/-- A tag without an id holds all its spacing in front. -/
def Tag.settle (tag : Tag) : Tag :=
  match tag.id with
  | some _ => tag
  | none => { tag with lead := tag.lead ++ tag.tail, tail := [] }

/-- A piece of text with its spacing settled. -/
def Item.settle : Item → Item
  | .run text => .run text
  | .tag t => .tag t.settle

/-- A text with its spacing settled. -/
def TaggedText.settle (items : TaggedText) : TaggedText :=
  items.map Item.settle

/-- A dialog window without a speaker holds the spacing of its header in front of where the speaker
would stand. -/
def Dialog.settle (window : Dialog) : Dialog :=
  match window.speaker with
  | some name => { window with speaker := some name.settle, body := window.body.settle }
  | none =>
    { window with gap := window.gap ++ window.tail, tail := [], body := window.body.settle }

/-- A window with its spacing settled. -/
def Window.settle : Window → Window
  | .dialog w => .dialog w.settle
  | .selection w => .selection { w with body := w.body.settle }

/-- A source with its spacing settled. -/
def Document.settle (document : Document) : Document :=
  { document with windows := document.windows.map Window.settle }

@[simp] theorem outline_tag_settle (tag : Tag) : tag.settle.outline = tag.outline := by
  unfold Tag.settle
  split <;> rfl

@[simp] theorem outline_item_settle (item : Item) : item.settle.outline = item.outline := by
  cases item with
  | run text => rfl
  | tag t => simp [Item.settle, Item.outline]

@[simp] theorem outline_text_settle (items : TaggedText) :
    items.settle.outline = items.outline := by
  simp [TaggedText.settle, TaggedText.outline]

@[simp] theorem outline_window_settle (window : Window) :
    window.settle.outline = window.outline := by
  cases window with
  | dialog w =>
    simp only [Window.settle, Dialog.settle, Window.outline]
    split <;> rename_i hspeaker <;> simp [hspeaker]
  | selection w => simp [Window.settle, Window.outline]

/-- Settling spacing leaves the outline as it is. -/
@[simp] theorem outline_settle (document : Document) :
    document.settle.outline = document.outline := by
  simp [Document.settle, Document.outline]

/-! ### Classes of characters -/

theorem isSpacing_iff {c : Char} : isSpacing c = true ↔ c = ' ' ∨ c = '\t' := by
  simp [isSpacing]

/-- Assumes: a class that holds no spacing. A text that begins with a character of the class does
not begin with spacing. -/
theorem stops_spacing_cons {ok : Char → Bool} (hspace : ok ' ' = false) (htab : ok '\t' = false)
    {c : Char} (hc : ok c = true) (rest : List Char) : Stops isSpacing (c :: rest) := by
  refine (stops_cons isSpacing c rest).mpr (by_contra fun hspacing ↦ ?_)
  rcases isSpacing_iff.mp (by simpa using hspacing) with rfl | rfl
  · exact absurd hc (by simp [hspace])
  · exact absurd hc (by simp [htab])

/-- Assumes: a class that holds no spacing. Spacing in front of a text that stops the class stops
it. -/
theorem stops_spacing_append {ok : Char → Bool} {spaces rest : List Char}
    (hspace : ok ' ' = false) (htab : ok '\t' = false)
    (hspaces : spaces ∈ Spelling.spacing) (hrest : Stops ok rest) :
    Stops ok (spaces ++ rest) := by
  refine Stops.append (fun c hc ↦ ?_) hrest
  rcases isSpacing_iff.mp (Spelling.mem_spacing.mp hspaces c hc) with rfl | rfl
  · exact hspace
  · exact htab

/-- A character that is a digit or a minus sign is no spacing. -/
theorem stops_literal {word : List Char} (hword : word ∈ Spelling.literal) (rest : List Char) :
    Stops isSpacing (word ++ rest) := by
  obtain ⟨sign, head, tail, rfl, hsign, hhead, _⟩ := Spelling.mem_literal.mp hword
  rcases hsign with rfl | rfl
  · exact stops_spacing_cons rfl rfl hhead _
  · exact (stops_cons isSpacing '-' _).mpr (by decide)

/-! ### Words -/

theorem takes_identifier {word rest : List Char} (hword : word ∈ Spelling.identifier)
    (hrest : Stops isIdentifierTail rest) : Takes Grammar.identifier word rest word := by
  obtain ⟨head, tail, rfl, hhead, htail⟩ := Spelling.mem_identifier.mp hword
  have htakes : Takes Grammar.identifier ([head] ++ (tail ++ [])) rest (head :: tail) :=
    Takes.bind (Takes.one hhead) (Takes.bind (Takes.span htail hrest) (Takes.pure _ rest))
  simpa using htakes

theorem takes_tagId {word rest : List Char} (hword : word ∈ Spelling.tagId)
    (hrest : Stops isIdentifierTail rest) : Takes Grammar.tagId word rest word := by
  obtain ⟨head, tail, rfl, hhead, htail⟩ := Spelling.mem_tagId.mp hword
  have htakes : Takes Grammar.tagId ([head] ++ (tail ++ [])) rest (head :: tail) :=
    Takes.bind (Takes.one hhead) (Takes.bind (Takes.span htail hrest) (Takes.pure _ rest))
  simpa using htakes

/-- The optional minus sign in front of a digit. -/
theorem takes_sign {sign : List Char} {head : Char} (hsign : sign = [] ∨ sign = ['-'])
    (hhead : head.isDigit = true) (rest : List Char) :
    Takes (optional (one (· == '-'))) sign (head :: rest) sign.head? := by
  rcases hsign with rfl | rfl
  · refine Takes.optional_none (Refuses.one ((stops_cons _ head rest).mpr ?_))
    refine beq_eq_false_iff_ne.mpr fun heq ↦ ?_
    rw [heq] at hhead
    exact absurd hhead (by decide)
  · exact Takes.optional_some (Takes.one (by decide))

theorem takes_literal {word rest : List Char} (hword : word ∈ Spelling.literal)
    (hrest : Stops Char.isAlphanum rest) : Takes Grammar.literal word rest word := by
  obtain ⟨sign, head, tail, rfl, hsign, hhead, htail⟩ := Spelling.mem_literal.mp hword
  have htakes : Takes Grammar.literal (sign ++ ([head] ++ (tail ++ []))) rest
      (sign.head?.toList ++ head :: tail) :=
    Takes.bind (takes_sign hsign hhead _) (Takes.bind (Takes.one hhead)
      (Takes.bind (Takes.span htail hrest) (Takes.pure _ rest)))
  have hvalue : sign.head?.toList = sign := by
    rcases hsign with rfl | rfl <;> rfl
  rw [hvalue] at htakes
  simpa using htakes

/-! ### Tags -/

theorem takes_argument {argument : Argument} {rest : List Char}
    (hgap : argument.gap ∈ Spelling.gap) (hliteral : argument.literal ∈ Spelling.literal)
    (hrest : Stops Char.isAlphanum rest) :
    Takes Grammar.argument argument.text rest argument := by
  obtain ⟨hne, hspacing⟩ := Spelling.mem_gap.mp hgap
  have hstops : Stops isSpacing ((argument.literal ++ []) ++ rest) := by
    simpa using stops_literal hliteral rest
  have htakes : Takes Grammar.argument (argument.gap ++ (argument.literal ++ [])) rest argument :=
    Takes.bind (Takes.span1 hne hspacing hstops)
      (Takes.bind (takes_literal hliteral hrest) (Takes.pure _ rest))
  simpa [Argument.text] using htakes

/-- Assumes: something is not read in front of a character that is no spacing. It is not read either
with spacing required in front of it. -/
theorem refuses_gap {α : Type} {next : List Char → Parser α} {spaces more : List Char} {c : Char}
    (hspaces : spaces ∈ Spelling.spacing) (hc : isSpacing c = false)
    (hnext : Refuses (next spaces) (c :: more)) :
    Refuses (span1 isSpacing >>= next) (spaces ++ c :: more) := by
  have hstops : Stops isSpacing (c :: more) := (stops_cons isSpacing c more).mpr hc
  by_cases hnil : spaces = []
  · rw [hnil]
    exact Refuses.bind_first (Refuses.span1 hstops)
  · exact Refuses.bind_next (Takes.span1 hnil (Spelling.mem_spacing.mp hspaces) hstops) hnext

/-- The end of a tag is no literal. -/
theorem refuses_argument {spaces : List Char} (hspaces : spaces ∈ Spelling.spacing)
    (rest : List Char) : Refuses Grammar.argument (spaces ++ '>' :: rest) := by
  have hsign : Takes (optional (one (· == '-'))) [] ('>' :: rest) none :=
    Takes.optional_none (Refuses.one ((stops_cons _ '>' rest).mpr (by decide)))
  have hdigit : Refuses (one Char.isDigit) ('>' :: rest) :=
    Refuses.one ((stops_cons _ '>' rest).mpr (by decide))
  have hliteral : Refuses Grammar.literal ([] ++ '>' :: rest) :=
    Refuses.bind_next hsign (Refuses.bind_first hdigit)
  exact refuses_gap hspaces rfl (Refuses.bind_first hliteral)

/-- Assumes: a class without spacing and the bracket that closes a tag. What follows the id of a tag
or one of its literals stops the class. -/
theorem stops_args {ok : Char → Bool} (hspace : ok ' ' = false) (htab : ok '\t' = false)
    (hclose : ok '>' = false) {args : List Argument}
    (hargs : ∀ argument ∈ args, argument.gap ∈ Spelling.gap) {tail : List Char}
    (htail : tail ∈ Spelling.spacing) (rest : List Char) :
    Stops ok (args.flatMap Argument.text ++ (tail ++ '>' :: rest)) := by
  cases args with
  | nil =>
    change Stops ok (tail ++ '>' :: rest)
    exact stops_spacing_append hspace htab htail ((stops_cons ok '>' rest).mpr hclose)
  | cons argument later =>
    obtain ⟨hne, hspacing⟩ := Spelling.mem_gap.mp (hargs argument (by simp))
    obtain ⟨c, more, hgap⟩ := List.exists_cons_of_ne_nil hne
    rw [List.flatMap_cons, Argument.text, hgap]
    refine (stops_cons ok c _).mpr ?_
    rcases isSpacing_iff.mp (hspacing c (by simp [hgap])) with rfl | rfl
    · exact hspace
    · exact htab

theorem takes_args {args : List Argument}
    (hargs : ∀ argument ∈ args, argument.gap ∈ Spelling.gap)
    (hliterals : ∀ argument ∈ args, argument.literal ∈ Spelling.literal) {tail : List Char}
    (htail : tail ∈ Spelling.spacing) (rest : List Char) :
    Takes (many Grammar.argument) (args.flatMap Argument.text) (tail ++ '>' :: rest) args := by
  have hturn : InTurn (fun argument more ↦ argument.text ≠ [] ∧
      Takes Grammar.argument argument.text more (id argument)) Argument.text args
      (tail ++ '>' :: rest) := by
    induction args with
    | nil => trivial
    | cons argument later ih =>
      have hgap := hargs argument (by simp)
      have hlater : ∀ a ∈ later, a.gap ∈ Spelling.gap := fun a ha ↦ hargs a (by simp [ha])
      refine ⟨⟨?_, takes_argument hgap (hliterals argument (by simp))
        (stops_args rfl rfl rfl hlater htail rest)⟩,
        ih hlater fun a ha ↦ hliterals a (by simp [ha])⟩
      simp [Argument.text, (Spelling.mem_gap.mp hgap).1]
  have htakes := Takes.many hturn (refuses_argument htail rest)
  rwa [List.map_id] at htakes

/-- Assumes: the parts of a tag are read in front of what follows them. The tag is read. -/
theorem takes_tag_of_parts {lead word tail rest : List Char} {id : Option (List Char)}
    {args : List Argument}
    (hlead : Takes Grammar.spacing lead
      (word ++ (args.flatMap Argument.text ++ (tail ++ '>' :: rest))) lead)
    (hid : Takes (optional Grammar.tagId) word
      (args.flatMap Argument.text ++ (tail ++ '>' :: rest)) id)
    (hargs : Takes (many Grammar.argument) (args.flatMap Argument.text) (tail ++ '>' :: rest) args)
    (htail : Takes Grammar.spacing tail ('>' :: rest) tail) :
    Takes Grammar.tag ('<' :: lead ++ word ++ args.flatMap Argument.text ++ tail ++ ['>']) rest
      ⟨lead, id, args, tail⟩ := by
  have htakes : Takes Grammar.tag
      (['<'] ++ (lead ++ (word ++ (args.flatMap Argument.text ++ (tail ++ (['>'] ++ [])))))) rest
      ⟨lead, id, args, tail⟩ :=
    Takes.bind (Takes.char '<' _) (Takes.bind (by simpa using hlead)
      (Takes.bind (by simpa using hid) (Takes.bind (by simpa using hargs) (Takes.bind htail
        (Takes.bind (Takes.char '>' _) (Takes.pure _ rest))))))
  simpa using htakes

theorem takes_tag {tag : Tag} (hspelled : tag.Spelled) (rest : List Char) :
    Takes Grammar.tag tag.text rest tag.settle := by
  obtain ⟨lead, id, args, tail⟩ := tag
  obtain ⟨⟨hlead, hargs, htail⟩, ⟨hid, hliterals, hnil⟩⟩ := hspelled
  have hspaces : ∀ c ∈ lead, isSpacing c = true := Spelling.mem_spacing.mp hlead
  have htailSpaces : ∀ c ∈ tail, isSpacing c = true := Spelling.mem_spacing.mp htail
  have hclose : Stops isSpacing ('>' :: rest) := (stops_cons isSpacing '>' rest).mpr (by decide)
  cases id with
  | none =>
    obtain rfl : args = [] := List.map_eq_nil_iff.mp (hnil rfl)
    have hboth : ∀ c ∈ lead ++ tail, isSpacing c = true := by
      simpa [or_imp, forall_and] using ⟨hspaces, htailSpaces⟩
    have hnoId : Refuses Grammar.tagId
        (([] : List Argument).flatMap Argument.text ++ ([] ++ '>' :: rest)) :=
      Refuses.bind_first (Refuses.one ((stops_cons _ '>' rest).mpr (by decide)))
    have hnoArgs := takes_args (List.forall_mem_nil _) (List.forall_mem_nil _)
      (Language.nil_mem_kstar _) rest
    have htakes := takes_tag_of_parts (Takes.span hboth hclose) (Takes.optional_none hnoId) hnoArgs
      (Takes.span (List.forall_mem_nil _) hclose)
    simpa [Tag.text, Tag.beforeArgs, Tag.beforeId, Tag.settle] using htakes
  | some word =>
    have hword : word ∈ Spelling.tagId := hid word rfl
    obtain ⟨head, more, hcons, hhead, _⟩ := Spelling.mem_tagId.mp hword
    have hstart : Stops isSpacing
        (word ++ (args.flatMap Argument.text ++ (tail ++ '>' :: rest))) := by
      rw [hcons]
      exact stops_spacing_cons rfl rfl hhead _
    have hstop : Stops isIdentifierTail
        (args.flatMap Argument.text ++ (tail ++ '>' :: rest)) :=
      stops_args rfl rfl rfl hargs htail rest
    have hliteral : ∀ argument ∈ args, argument.literal ∈ Spelling.literal :=
      fun argument hargument ↦ hliterals _ (List.mem_map.mpr ⟨argument, hargument, rfl⟩)
    exact takes_tag_of_parts (Takes.span hspaces hstart)
      (Takes.optional_some (takes_tagId hword hstop)) (takes_args hargs hliteral htail rest)
      (Takes.span htailSpaces hclose)

/-! ### Texts -/

/-- A text with tags ends in front of a square bracket or the end of the source. -/
def EndsText (rest : List Char) : Prop :=
  ∀ c ∈ rest.head?, c = '[' ∨ c = ']'

/-- Assumes: a class without the square brackets. What ends a text stops the class. -/
theorem EndsText.stops {ok : Char → Bool} {rest : List Char} (h : EndsText rest)
    (hopen : ok '[' = false) (hclose : ok ']' = false) : Stops ok rest := by
  intro c hc
  rcases h c hc with rfl | rfl
  · exact hopen
  · exact hclose

theorem EndsText.refuses_item {rest : List Char} (h : EndsText rest) :
    Refuses Grammar.item rest :=
  Refuses.orElse (Refuses.bind_first (Refuses.bind_first (Refuses.char (h.stops rfl rfl))))
    (Refuses.bind_first (Refuses.span1 (h.stops rfl rfl)))

theorem takes_item {item : Item} (hspelled : item.Spelled) {rest : List Char}
    (hrest : item.outline.IsRun → Stops isPlain rest) :
    Takes Grammar.item item.text rest item.settle := by
  cases item with
  | run text =>
    obtain ⟨hne, hplain⟩ := Spelling.mem_run.mp hspelled.2
    obtain ⟨c, tail, rfl⟩ := List.exists_cons_of_ne_nil hne
    have hangle : (c == '<') = false := by
      refine beq_eq_false_iff_ne.mpr fun heq ↦ ?_
      have hc : isPlain c = true := hplain c (by simp)
      rw [heq] at hc
      exact absurd hc (by decide)
    have hnoTag : Refuses Grammar.tag ((c :: tail) ++ [] ++ rest) :=
      Refuses.bind_first (Refuses.char ((stops_cons _ c _).mpr hangle))
    have htakes : Takes Grammar.item ((c :: tail) ++ []) rest (.run (c :: tail)) :=
      Takes.orElse_right (Refuses.bind_first hnoTag)
        (Takes.bind (Takes.span1 hne hplain (hrest trivial)) (Takes.pure _ rest))
    simpa [Item.settle, Item.text] using htakes
  | tag t =>
    have htakes : Takes Grammar.item (t.text ++ []) rest (.tag t.settle) :=
      Takes.orElse_left (Takes.bind (takes_tag hspelled _) (Takes.pure _ rest))
    simpa [Item.settle, Item.text] using htakes

/-- A tag begins with its bracket. -/
theorem exists_text_tag (tag : Tag) : ∃ more, tag.text = '<' :: more :=
  ⟨_, rfl⟩

theorem inTurn_items {items : TaggedText} (hspelled : items.Spelled) {rest : List Char}
    (hrest : EndsText rest) :
    InTurn (fun item more ↦ item.text ≠ [] ∧ Takes Grammar.item item.text more item.settle)
      Item.text items rest := by
  induction items with
  | nil => trivial
  | cons item later ih =>
    obtain ⟨hspaced, heach, hruns⟩ := hspelled
    obtain ⟨hitemSpaced, hlaterSpaced⟩ := List.forall_mem_cons.mp hspaced
    obtain ⟨hitem, hlater⟩ := List.forall_mem_cons.mp heach
    obtain ⟨hnext, hchain⟩ := List.isChain_cons.mp hruns
    refine ⟨⟨?_, takes_item ⟨hitemSpaced, hitem⟩ fun hrun ↦ ?_⟩,
      ih ⟨hlaterSpaced, ⟨hlater, hchain⟩⟩⟩
    · cases item with
      | run text => exact (Spelling.mem_run.mp hitem).1
      | tag t =>
        obtain ⟨more, hmore⟩ := exists_text_tag t
        simp [Item.text, hmore]
    · -- behind a run stands a tag or the end of the text
      cases later with
      | nil => exact hrest.stops rfl rfl
      | cons other more =>
        cases other with
        | run text => exact absurd ⟨hrun, trivial⟩ (hnext (.run text) rfl)
        | tag t =>
          obtain ⟨tail, htail⟩ := exists_text_tag t
          rw [List.flatMap_cons, Item.text, htail]
          exact (stops_cons isPlain '<' _).mpr (by decide)

theorem takes_taggedText {items : TaggedText} (hspelled : items.Spelled) {rest : List Char}
    (hrest : EndsText rest) : Takes Grammar.taggedText items.text rest items.settle :=
  Takes.many (inTurn_items hspelled hrest) hrest.refuses_item

theorem takes_speaker {name : TaggedText} (hspelled : name.Spelled) (rest : List Char) :
    Takes Grammar.speaker (speakerText name) rest name.settle := by
  have hend : EndsText ((([']'] : List Char) ++ []) ++ rest) := by
    intro c hc
    exact Or.inr (by simpa using hc.symm)
  have htakes : Takes Grammar.speaker (['['] ++ (name.text ++ ([']'] ++ []))) rest name.settle :=
    Takes.bind (Takes.char '[' _) (Takes.bind (takes_taggedText hspelled hend)
      (Takes.bind (Takes.char ']' _) (Takes.pure _ rest)))
  simpa [speakerText] using htakes

/-! ### Windows -/

/-- The label of a window ends in front of spacing and a square bracket. -/
def EndsLabel (rest : List Char) : Prop :=
  ∃ spaces c more, spaces ∈ Spelling.spacing ∧ (c = '[' ∨ c = ']') ∧ rest = spaces ++ c :: more

theorem EndsLabel.stops {rest : List Char} (h : EndsLabel rest) :
    Stops isIdentifierTail rest := by
  obtain ⟨spaces, c, more, hspaces, hc, rfl⟩ := h
  refine stops_spacing_append rfl rfl hspaces ((stops_cons _ c more).mpr ?_)
  rcases hc with rfl | rfl <;> rfl

theorem EndsLabel.refuses_label {rest : List Char} (h : EndsLabel rest) :
    Refuses Grammar.label rest := by
  obtain ⟨spaces, c, more, hspaces, hc, rfl⟩ := h
  have hspacing : isSpacing c = false := by
    rcases hc with rfl | rfl <;> rfl
  have hhead : isIdentifierHead c = false := by
    rcases hc with rfl | rfl <;> rfl
  have hidentifier : Refuses Grammar.identifier (c :: more) :=
    Refuses.bind_first (Refuses.one ((stops_cons _ c more).mpr hhead))
  exact refuses_gap hspaces hspacing (Refuses.bind_first hidentifier)

theorem takes_label {label : Label} (hgap : label.gap ∈ Spelling.gap)
    (hidentifier : label.identifier ∈ Spelling.identifier) {rest : List Char}
    (hrest : EndsLabel rest) : Takes Grammar.label label.text rest label := by
  obtain ⟨hne, hspacing⟩ := Spelling.mem_gap.mp hgap
  obtain ⟨head, tail, hcons, hhead, _⟩ := Spelling.mem_identifier.mp hidentifier
  have hstops : Stops isSpacing ((label.identifier ++ []) ++ rest) := by
    rw [hcons]
    exact stops_spacing_cons rfl rfl hhead _
  have htakes : Takes Grammar.label (label.gap ++ (label.identifier ++ [])) rest label :=
    Takes.bind (Takes.span1 hne hspacing hstops)
      (Takes.bind (takes_identifier hidentifier hrest.stops) (Takes.pure _ rest))
  simpa [Label.text] using htakes

theorem takes_optional_label {label : Option Label}
    (hgap : ∀ l ∈ label, l.gap ∈ Spelling.gap)
    (hidentifier : ∀ word ∈ label.map Label.identifier, word ∈ Spelling.identifier)
    {rest : List Char} (hrest : EndsLabel rest) :
    Takes (optional Grammar.label) ((label.map Label.text).getD []) rest label := by
  cases label with
  | none => exact Takes.optional_none hrest.refuses_label
  | some l => exact Takes.optional_some (takes_label (hgap l rfl) (hidentifier _ rfl) hrest)

/-- A keyword does not begin with spacing. -/
theorem stops_keyword {letter : Char} {word text : List Char}
    (hword : ∀ c ∈ letter :: word, c.isLower = true)
    (htext : text ∈ Spelling.anyCase (letter :: word)) (more rest : List Char) :
    Stops isSpacing ((text ++ more) ++ rest) := by
  obtain ⟨c, tail, rfl, hc, _⟩ :=
    List.map_eq_cons_iff.mp ((Spelling.mem_anyCase hword).mp htext)
  have hletter : letter.isLower = true := hword letter (by simp)
  rw [← hc] at hletter
  exact @stops_spacing_cons (fun c ↦ c.toLower.isLower) rfl rfl c hletter _

/-- Assumes: the parts of a dialog window are read in front of what follows them. The window is
read. -/
theorem takes_dialog_of_parts {lead keyword gap word tail rest : List Char} {label : Option Label}
    {speaker : Option TaggedText} {body value : TaggedText} (hlead : lead ∈ Spelling.spacing)
    (hkeyword : keyword ∈ Spelling.anyCase ['d', 'l', 'g'])
    (hlabel : Takes (optional Grammar.label) ((label.map Label.text).getD [])
      (gap ++ (word ++ (tail ++ ']' :: (body.text ++ rest)))) label)
    (hgap : Takes Grammar.spacing gap (word ++ (tail ++ ']' :: (body.text ++ rest))) gap)
    (hspeaker : Takes (optional Grammar.speaker) word (tail ++ ']' :: (body.text ++ rest)) speaker)
    (htail : Takes Grammar.spacing tail (']' :: (body.text ++ rest)) tail)
    (hbody : Takes Grammar.taggedText body.text rest value) :
    Takes Grammar.dialog ('[' :: lead ++ keyword ++ (label.map Label.text).getD [] ++ gap ++ word ++
      tail ++ [']'] ++ body.text) rest ⟨lead, keyword, label, gap, speaker, tail, value⟩ := by
  have hstart := stops_keyword Spelling.isLower_dlg hkeyword
  have htakes : Takes Grammar.dialog
      (['['] ++ (lead ++ (keyword ++ ((label.map Label.text).getD [] ++
        (gap ++ (word ++ (tail ++ ([']'] ++ (body.text ++ []))))))))) rest
      ⟨lead, keyword, label, gap, speaker, tail, value⟩ :=
    Takes.bind (Takes.char '[' _)
      (Takes.bind (Takes.span (Spelling.mem_spacing.mp hlead) (hstart _ _))
        (Takes.bind (Takes.keyword ((Spelling.mem_anyCase Spelling.isLower_dlg).mp hkeyword))
          (Takes.bind (by simpa using hlabel) (Takes.bind (by simpa using hgap)
            (Takes.bind (by simpa using hspeaker) (Takes.bind (by simpa using htail)
              (Takes.bind (Takes.char ']' _) (Takes.bind hbody (Takes.pure _ rest)))))))))
  simpa using htakes

theorem takes_dialog {window : Dialog} (hspelled : (Window.dialog window).Spelled)
    {rest : List Char} (hrest : EndsText rest) :
    Takes Grammar.dialog window.text rest window.settle := by
  obtain ⟨lead, keyword, label, gap, speaker, tail, body⟩ := window
  obtain ⟨⟨hlead, hkeyword, hlabel, hgap, hspeaker, htail, hbody⟩, hidentifier, hname,
    hbodyWords⟩ := hspelled
  have hgapSpaces : ∀ c ∈ gap, isSpacing c = true := Spelling.mem_spacing.mp hgap
  have htailSpaces : ∀ c ∈ tail, isSpacing c = true := Spelling.mem_spacing.mp htail
  have htext := takes_taggedText ⟨hbody, hbodyWords⟩ hrest
  have hclose : Stops isSpacing (']' :: (body.text ++ rest)) :=
    (stops_cons isSpacing ']' _).mpr (by decide)
  cases speaker with
  | none =>
    have hboth : ∀ c ∈ gap ++ tail, isSpacing c = true := by
      simpa [or_imp, forall_and] using ⟨hgapSpaces, htailSpaces⟩
    have hends : EndsLabel ((gap ++ tail) ++ ']' :: (body.text ++ rest)) :=
      ⟨gap ++ tail, ']', _, Spelling.mem_spacing.mpr hboth, Or.inr rfl, rfl⟩
    have hnoSpeaker : Refuses Grammar.speaker (']' :: (body.text ++ rest)) :=
      Refuses.bind_first (Refuses.char ((stops_cons _ ']' _).mpr (by decide)))
    have htakes := takes_dialog_of_parts hlead hkeyword
      (takes_optional_label hlabel hidentifier hends) (Takes.span hboth hclose)
      (Takes.optional_none hnoSpeaker) (Takes.span (List.forall_mem_nil _) hclose) htext
    simpa [Dialog.text, Dialog.header, Dialog.beforeSpeaker, Dialog.beforeLabel, Dialog.settle]
      using htakes
  | some name =>
    have hopen : Stops isSpacing (speakerText name ++ (tail ++ ']' :: (body.text ++ rest))) :=
      (stops_cons isSpacing '[' _).mpr (by decide)
    have hends : EndsLabel (gap ++ (speakerText name ++ (tail ++ ']' :: (body.text ++ rest)))) :=
      ⟨gap, '[', _, hgap, Or.inl rfl, rfl⟩
    have htakes := takes_dialog_of_parts hlead hkeyword
      (takes_optional_label hlabel hidentifier hends) (Takes.span hgapSpaces hopen)
      (Takes.optional_some (takes_speaker ⟨hspeaker name rfl, hname _ rfl⟩ _))
      (Takes.span htailSpaces hclose) htext
    simpa [Dialog.text, Dialog.header, Dialog.beforeSpeaker, Dialog.beforeLabel, Dialog.settle]
      using htakes

theorem takes_selection {window : Selection} (hspelled : (Window.selection window).Spelled)
    {rest : List Char} (hrest : EndsText rest) :
    Takes Grammar.selection window.text rest { window with body := window.body.settle } := by
  obtain ⟨lead, keyword, label, tail, body⟩ := window
  obtain ⟨⟨hlead, hkeyword, hlabel, htail, hbody⟩, hidentifier, hbodyWords⟩ := hspelled
  have hleadSpaces : ∀ c ∈ lead, isSpacing c = true := Spelling.mem_spacing.mp hlead
  have htailSpaces : ∀ c ∈ tail, isSpacing c = true := Spelling.mem_spacing.mp htail
  have hword := (Spelling.mem_anyCase Spelling.isLower_sel).mp hkeyword
  have hstart := stops_keyword Spelling.isLower_sel hkeyword
  have htext := takes_taggedText ⟨hbody, hbodyWords⟩ hrest
  have hclose : ∀ more, Stops isSpacing (']' :: more) :=
    fun more ↦ (stops_cons isSpacing ']' more).mpr (by decide)
  have hends : EndsLabel (tail ++ ']' :: (body.text ++ rest)) :=
    ⟨tail, ']', _, htail, Or.inr rfl, rfl⟩
  have htakes : Takes Grammar.selection
      (['['] ++ (lead ++ (keyword ++ ((label.map Label.text).getD [] ++
        (tail ++ ([']'] ++ (body.text ++ []))))))) rest
      ⟨lead, keyword, label, tail, body.settle⟩ :=
    Takes.bind (Takes.char '[' _) (Takes.bind (Takes.span hleadSpaces (hstart _ _))
      (Takes.bind (Takes.keyword hword)
        (Takes.bind (takes_optional_label hlabel hidentifier (by simpa using hends))
          (Takes.bind (Takes.span htailSpaces (hclose _))
            (Takes.bind (Takes.char ']' _) (Takes.bind htext (Takes.pure _ rest)))))))
  simpa [Selection.text, Selection.header, Selection.beforeLabel] using htakes

/-- A selection window is no dialog window, since its keyword differs. -/
theorem refuses_dialog {window : Selection} (hspaced : window.Spaced) (rest : List Char) :
    Refuses Grammar.dialog (window.text ++ rest) := by
  obtain ⟨lead, keyword, label, tail, body⟩ := window
  obtain ⟨hlead, hkeyword, -, -, -⟩ := hspaced
  have hword := (Spelling.mem_anyCase Spelling.isLower_sel).mp hkeyword
  have hlength : keyword.length = 3 := by
    have hmap := congrArg List.length hword
    rwa [List.length_map] at hmap
  have hstart := stops_keyword Spelling.isLower_sel hkeyword
  have hnoKeyword : ∀ more, Refuses (Parser.keyword ['d', 'l', 'g']) (keyword ++ more) := by
    intro more
    refine Refuses.keyword ?_
    change ((keyword ++ more).take 3).map Char.toLower ≠ _
    rw [← hlength, List.take_left, hword]
    decide
  have hrefuses : Refuses Grammar.dialog (['['] ++ (lead ++ (keyword ++
      ((label.map Label.text).getD [] ++ (tail ++ ([']'] ++ (body.text ++ rest))))))) :=
    Refuses.bind_next (Takes.char '[' _)
      (Refuses.bind_next (Takes.span (Spelling.mem_spacing.mp hlead) (by simpa using hstart _ []))
        (Refuses.bind_first (hnoKeyword _)))
  simpa [Selection.text, Selection.header, Selection.beforeLabel] using hrefuses

theorem takes_window {window : Window} (hspelled : window.Spelled) {rest : List Char}
    (hrest : EndsText rest) : Takes Grammar.window window.text rest window.settle := by
  cases window with
  | dialog w =>
    have htakes : Takes Grammar.window (w.text ++ []) rest (.dialog w.settle) :=
      Takes.attempt .messageWindow (Takes.orElse_left
        (Takes.bind (takes_dialog hspelled hrest) (Takes.pure _ rest)))
    rw [List.append_nil] at htakes
    exact htakes
  | selection w =>
    have htakes : Takes Grammar.window (w.text ++ []) rest
        (.selection { w with body := w.body.settle }) :=
      Takes.attempt .messageWindow (Takes.orElse_right
        (Refuses.bind_first (by simpa using refuses_dialog hspelled.1 rest))
        (Takes.bind (takes_selection hspelled hrest) (Takes.pure _ rest)))
    rw [List.append_nil] at htakes
    exact htakes

/-- A window begins with its bracket. -/
theorem exists_text_window (window : Window) : ∃ more, window.text = '[' :: more := by
  cases window with
  | dialog w => exact ⟨_, rfl⟩
  | selection w => exact ⟨_, rfl⟩

/-! ### Sources -/

theorem endsText_nil : EndsText [] := by
  simp [EndsText]

/-- Windows begin with a bracket, where a text before them ends. -/
theorem endsText_windows (windows : List Window) {rest : List Char} (hrest : EndsText rest) :
    EndsText (windows.flatMap Window.text ++ rest) := by
  cases windows with
  | nil => exact hrest
  | cons window later =>
    intro c hc
    obtain ⟨more, hmore⟩ := exists_text_window window
    rw [List.flatMap_cons, hmore] at hc
    exact Or.inl (by simpa using hc.symm)

theorem inTurn_windows {windows : List Window} (hspelled : ∀ window ∈ windows, window.Spelled)
    {rest : List Char} (hrest : EndsText rest) :
    InTurn (fun window more ↦ window.text ≠ [] ∧
      Takes Grammar.window window.text more window.settle) Window.text windows rest := by
  induction windows with
  | nil => trivial
  | cons window later ih =>
    obtain ⟨hwindow, hlater⟩ := List.forall_mem_cons.mp hspelled
    refine ⟨⟨?_, takes_window hwindow (endsText_windows later hrest)⟩, ih hlater⟩
    obtain ⟨more, hmore⟩ := exists_text_window window
    simp [hmore]

theorem takes_document {document : Document} (hspelled : document.Spelled) :
    Takes Grammar.document document.text [] document.settle := by
  obtain ⟨blanks, windows⟩ := document
  obtain ⟨hblanks, hwindows⟩ := spelled_document_iff.mp hspelled
  have hopen : Refuses (Parser.char '[') [] := Refuses.char (stops_nil _)
  have hnoWindow : Refuses Grammar.window [] :=
    Refuses.orElse (Refuses.bind_first (Refuses.bind_first hopen))
      (Refuses.bind_first (Refuses.bind_first hopen))
  have hmany : Takes (many Grammar.window) (windows.flatMap Window.text) []
      (windows.map Window.settle) :=
    Takes.many (inTurn_windows hwindows endsText_nil) hnoWindow
  have hstops : Stops isBlank (windows.flatMap Window.text ++ []) :=
    (endsText_windows windows endsText_nil).stops rfl rfl
  have hend : Takes atEnd [] [] () := fun _ ↦ rfl
  have htakes : Takes Grammar.document
      (blanks ++ (windows.flatMap Window.text ++ ([] ++ []))) []
      ⟨blanks, windows.map Window.settle⟩ :=
    Takes.bind (Takes.span (Spelling.mem_blanks.mp hblanks) (by simpa using hstops))
      (Takes.bind hmany (Takes.bind hend (Takes.pure _ [])))
  simpa [Document.text, Document.settle] using htakes

/-- The text of a tree of the grammar is read, and gives the tree with its spacing settled. -/
theorem parse_text {document : Document} (hspelled : document.Spelled) :
    parse document.text = .ok document.settle := by
  have hresult := takes_document hspelled 0
  rw [List.append_nil] at hresult
  unfold parse
  dsimp only
  rw [hresult]

end DialogueScript.Syntax
