import DialogueScript.Proofs.Compile.Literal
import DialogueScript.Proofs.Compile.Omission

/-!
# Sources with another literal

The grammar reads more words as literals than have a value, so that a malformed literal reaches the
compiler. A literal of a call may be replaced by a loose word (`IsLooseWord`), which begins with a
digit or a minus and goes on with letters and digits. The source is read with the word as the
literal. It compiles if the word has a value, and otherwise it fails with an error that names the
word, where the word stands (`loose_literal`). The literal stands in a slot of the tag
(`slot_literal`), and the tag in a slot of the source.

A minus without a digit behind it is the exception. It is no literal of the grammar, and the source
with it is not read at all.
-/

set_option autoImplicit false
set_option relaxedAutoImplicit false

namespace DialogueScript

open Syntax

namespace Syntax

/-! ### Loose words -/

/-- A digit or a minus, and then letters and digits. -/
def IsLooseWord (word : List Char) : Prop :=
  ∃ head tail, word = head :: tail ∧ (head.isDigit = true ∨ head = '-') ∧
    ∀ c ∈ tail, c.isAlphanum = true

/-- A word does not begin with a minus, or with one that has a digit behind it. -/
def HasSignedDigit (word : List Char) : Prop :=
  ∀ tail, word = '-' :: tail → ∃ digit ∈ tail.head?, digit.isDigit = true

/-- Assumes: a loose word. It is a literal unless a minus in front lacks its digit. -/
theorem mem_literal_of_hasSignedDigit {word : List Char} (hloose : IsLooseWord word)
    (hdigit : HasSignedDigit word) : word ∈ Spelling.literal := by
  obtain ⟨head, tail, rfl, hhead | rfl, htail⟩ := hloose
  · exact Spelling.mem_literal.mpr ⟨[], head, tail, rfl, Or.inl rfl, hhead, htail⟩
  · obtain ⟨digit, hmem, hisDigit⟩ := hdigit tail rfl
    obtain ⟨rest, rfl⟩ := List.head?_eq_some_iff.mp hmem
    exact Spelling.mem_literal.mpr ⟨['-'], digit, rest, rfl, Or.inr rfl, hisDigit,
      fun c hc ↦ htail c (List.mem_cons_of_mem digit hc)⟩

/-- A word whose minus lacks its digit. -/
theorem exists_minus_of_not_hasSignedDigit {word : List Char} (h : ¬HasSignedDigit word) :
    ∃ tail, word = '-' :: tail ∧ ∀ c ∈ tail.head?, c.isDigit = false := by
  simp only [HasSignedDigit, not_forall, not_exists, not_and, Bool.not_eq_true] at h
  obtain ⟨tail, hword, hdigit⟩ := h
  exact ⟨tail, hword, hdigit⟩

/-- What is said about a word without a value. -/
def malformedMessage (word : List Char) : String :=
  "Invalid integer format: " ++ ("'" ++ String.ofList word ++
    if ['0', 'x'] <+: word then "' is not a hexadecimal number" else "' is not a decimal number")

/-- The error of a word names the word. -/
theorem message_of_value_error {word : List Char} {error : LiteralError}
    (h : Literal.value word = .error error) :
    "Invalid integer format: " ++ error.message = malformedMessage word := by
  unfold malformedMessage
  by_cases hprefix : ['0', 'x'] <+: word
  · obtain rfl := (Literal.answers_hex hprefix).eq_of_error h
    rw [if_pos hprefix, LiteralError.message]
  · obtain rfl := (Literal.answers_decimal hprefix).eq_of_error h
    rw [if_neg hprefix, LiteralError.message]

theorem literalComplaints_eq_of_error {word : List Char} {error : LiteralError}
    (h : Literal.value word = .error error) (place : Place) :
    (Node.leaf .intLiteral place word).literalComplaints =
      [⟨malformedMessage word, place.position⟩] := by
  have hvalue : Literal.value (Node.leaf .intLiteral place word).text = .error error := h
  unfold Node.literalComplaints
  rw [hvalue, ← message_of_value_error h]
  rfl

/-! ### Sources with other characters for a node -/

/-- A source with a word for the characters of a node. -/
def Node.replacedBy (node : Node) (word source : List Char) : List Char :=
  source.take node.place.offset ++ word ++ source.drop node.stop

/-- Assumes: a node stands behind a text. Its characters are replaced between what is around it. -/
theorem Node.replacedBy_append {node : Node} {front : List Char}
    (hplace : node.place = Place.start.after front) (word behind : List Char) :
    node.replacedBy word (front ++ node.text ++ behind) = front ++ word ++ behind := by
  rw [Node.replacedBy, take_offset hplace, drop_stop hplace]

/-! ### Slots for literals -/

/-- Literals, with the value that each of them needs in a call. -/
def Kind.literal : Kind (List Char) :=
  ⟨id, (· ∈ Spelling.literal), id, fun word ↦ ∃ value, Outline.Decodes word value,
    fun word place ↦ [.leaf .intLiteral place word],
    fun word place ↦ (Node.leaf .intLiteral place word).literalComplaints⟩

/-- A tag with a literal between others. -/
def Tag.withLiteral (tag : Tag) (before : List Argument) (gap : List Char) (after : List Argument)
    (word : List Char) : Tag :=
  { tag with args := before ++ ⟨gap, word⟩ :: after }

/-- The characters of a tag in front of a literal. -/
def Tag.beforeLiteral (tag : Tag) (before : List Argument) (gap : List Char) : List Char :=
  tag.beforeArgs ++ before.flatMap Argument.text ++ gap

/-- The characters of a tag behind a literal. -/
def Tag.behindLiteral (tag : Tag) (after : List Argument) : List Char :=
  after.flatMap Argument.text ++ (tag.tail ++ ['>'])

section Literal

variable {tag : Tag} {before after : List Argument} {gap word : List Char}

theorem text_withLiteral :
    (tag.withLiteral before gap after word).text =
      tag.beforeLiteral before gap ++ word ++ tag.behindLiteral after := by
  simp [Tag.text, Tag.withLiteral, Tag.beforeLiteral, Tag.behindLiteral, Tag.beforeArgs,
    Tag.beforeId, Argument.text]

/-- The literals in front of one do not depend on it, and its place does not either. -/
theorem exists_childrenOf_withLiteral (tag : Tag) (before : List Argument) (gap : List Char)
    (after : List Argument) (place : Place) :
    ∃ earlier, ∀ word, ∃ later,
      ((tag.withLiteral before gap after word).node place).childrenOf .intLiteral = earlier ++
        .leaf .intLiteral (place.after (tag.beforeLiteral before gap)) word :: later := by
  let node : Located Argument → Node := fun argument ↦
    .leaf .intLiteral (argument.place.after argument.value.gap) argument.value.literal
  refine ⟨(locate Argument.text (place.after tag.beforeArgs) before).map node, fun word ↦
    ⟨(locate Argument.text ((place.after (tag.beforeArgs ++ before.flatMap Argument.text)).after
      (gap ++ word)) after).map node, ?_⟩⟩
  rw [childrenOf_intLiteral_tag, Tag.literals, List.map_map]
  change (locate Argument.text (place.after tag.beforeArgs)
    (before ++ ⟨gap, word⟩ :: after)).map node = _
  rw [locate_append, List.map_append, Tag.beforeLiteral, Place.after_append, Place.after_append]
  rfl

theorem mem_childrenOf_withLiteral (tag : Tag) (before : List Argument) (gap : List Char)
    (after : List Argument) (word : List Char) (place : Place) :
    .leaf .intLiteral (place.after (tag.beforeLiteral before gap)) word ∈
      ((tag.withLiteral before gap after word).node place).childrenOf .intLiteral := by
  obtain ⟨earlier, hchildren⟩ := exists_childrenOf_withLiteral tag before gap after place
  obtain ⟨later, hliterals⟩ := hchildren word
  rw [hliterals]
  exact List.mem_append_right earlier List.mem_cons_self

/-- A literal of a tag stands between the others. -/
theorem exists_withLiteral {place : Place} {literal : Node}
    (h : literal ∈ (tag.node place).childrenOf .intLiteral) :
    ∃ before gap after word, tag.withLiteral before gap after word = tag ∧
      literal = .leaf .intLiteral (place.after (tag.beforeLiteral before gap)) word := by
  rw [childrenOf_intLiteral_tag, Tag.literals, List.map_map] at h
  obtain ⟨⟨start, argument⟩, hlocated, rfl⟩ := List.mem_map.mp h
  obtain ⟨before, after, hargs, rfl⟩ := exists_of_mem_locate hlocated
  refine ⟨before, argument.gap, after, argument.literal, ?_, ?_⟩
  · rw [Tag.withLiteral, ← hargs]
  · rw [Tag.beforeLiteral, Place.after_append, Place.after_append]
    rfl

/-- The literals of a call are complained about in order. -/
theorem exists_callComplaints {node literal : Node} {earlier later : List Node}
    (h : node.childrenOf .intLiteral = earlier ++ literal :: later) :
    ∃ rest, node.callComplaints =
      earlier.flatMap Node.literalComplaints ++ literal.literalComplaints ++ rest := by
  have hall : (earlier ++ literal :: later).flatMap Node.literalComplaints =
      earlier.flatMap Node.literalComplaints ++ literal.literalComplaints ++
        later.flatMap Node.literalComplaints := by
    rw [List.flatMap_append, List.flatMap_cons, List.append_assoc]
  unfold Node.callComplaints
  rw [h]
  -- a literal that stands alone is the only case with a complaint about the tag behind it
  match earlier, later with
  | [], [] => exact ⟨_, rfl⟩
  | [], _ :: _ => exact ⟨_, hall⟩
  | [_], _ => exact ⟨_, hall⟩
  | _ :: _ :: _, _ => exact ⟨_, hall⟩

/-- Assumes: a tag is a call. Its literals need values, and there must be two of them. -/
theorem valid_call_iff {tag : Outline.Tag} (hid : tag.HasLetter 'f') :
    tag.Valid ↔ 2 ≤ tag.literals.length ∧
      ∀ literal ∈ tag.literals, ∃ value, Outline.Decodes literal value := by
  constructor
  · rintro (⟨-, hvalid⟩ | hletter | hletter)
    · exact hvalid
    · rcases hid with hid | hid <;> rcases hletter with h | h <;> simp [hid] at h
    · rcases hid with hid | hid <;> rcases hletter with h | h <;> simp [hid] at h
  · exact fun hvalid ↦ Or.inl ⟨hid, hvalid⟩

/-- Something is true of all literals if it is true of one of them and of those around it. -/
theorem forall_literals_withLiteral {P : List Char → Prop} :
    (∀ literal ∈ (tag.withLiteral before gap after word).outline.literals, P literal) ↔
      (∀ argument ∈ before ++ after, P argument.literal) ∧ P word := by
  simp only [Tag.withLiteral, Tag.outline, List.forall_mem_map, List.forall_mem_append,
    List.forall_mem_cons]
  constructor
  · rintro ⟨hbefore, hword, hafter⟩
    exact ⟨⟨hbefore, hafter⟩, hword⟩
  · rintro ⟨⟨hbefore, hafter⟩, hword⟩
    exact ⟨hbefore, hword, hafter⟩

theorem spaced_withLiteral_iff :
    (tag.withLiteral before gap after word).Spaced ↔
      tag.lead ∈ Spelling.spacing ∧ tag.tail ∈ Spelling.spacing ∧ gap ∈ Spelling.gap ∧
        ∀ argument ∈ before ++ after, argument.gap ∈ Spelling.gap := by
  rw [List.forall_mem_append]
  constructor
  · rintro ⟨hlead, hargs, htail⟩
    obtain ⟨hbefore, hgaps⟩ := List.forall_mem_append.mp hargs
    obtain ⟨hgap, hafter⟩ := List.forall_mem_cons.mp hgaps
    exact ⟨hlead, htail, hgap, hbefore, hafter⟩
  · rintro ⟨hlead, htail, hgap, hbefore, hafter⟩
    exact ⟨hlead, List.forall_mem_append.mpr ⟨hbefore, List.forall_mem_cons.mpr ⟨hgap, hafter⟩⟩,
      htail⟩

/-- A tag with an id has its spacing settled. -/
theorem settle_of_hasLetter {tag : Tag} {letter : Char} (h : tag.outline.HasLetter letter) :
    tag.settle = tag := by
  obtain ⟨lead, id, args, tail⟩ := tag
  rcases h with rfl | rfl <;> rfl

/-- What is wrong with a call is what is wrong with its literals, or that there is only one. -/
theorem tagComplaints_call {place : Place} (hid : tag.outline.HasLetter 'f') :
    (tag.node place).tagComplaints = (tag.node place).callComplaints := by
  unfold Node.tagComplaints
  rw [child?_tagId_tag]
  rcases hid with hid | hid
  · rw [show tag.id = some ['f'] from hid]
    exact if_pos (Or.inl rfl)
  · rw [show tag.id = some ['F'] from hid]
    exact if_pos (Or.inr rfl)

/-- Assumes: a tag is a call. Literals stand between its other literals. -/
theorem slot_literal (hid : tag.outline.HasLetter 'f') (before : List Argument) (gap : List Char)
    (after : List Argument) (place : Place) :
    Slot Kind.literal Kind.tag place (tag.withLiteral before gap after)
      (tag.beforeLiteral before gap) (tag.behindLiteral after) := by
  have hletter : ∀ word, (tag.withLiteral before gap after word).outline.HasLetter 'f' :=
    fun _ ↦ hid
  obtain ⟨earlier, hchildren⟩ := exists_childrenOf_withLiteral tag before gap after place
  -- only the word is exchanged, so that what a whole tag needs is known of all other literals
  refine ⟨fun word ↦ text_withLiteral, fun word h ↦ ?_, fun word other h hother ↦ ⟨?_, ?_⟩,
    fun word _ ↦ rfl, fun word other _ _ ↦ settle_of_hasLetter (hletter other),
    fun word h ↦ ?_, fun word other h hother ↦ ?_, fun word ↦ ?_,
    ⟨earlier.flatMap Node.literalComplaints, fun word ↦ ?_⟩⟩
  · exact (forall_literals_withLiteral.mp h.2.literals).2
  · exact spaced_withLiteral_iff.mpr (spaced_withLiteral_iff.mp h.1)
  · have hliterals := (forall_literals_withLiteral.mp h.2.literals).1
    refine ⟨h.2.id, forall_literals_withLiteral.mpr ⟨hliterals, hother⟩, fun hnone ↦ ?_⟩
    exact absurd (h.2.literals_eq_nil hnone) (by simp [Tag.withLiteral, Tag.outline])
  · exact (forall_literals_withLiteral.mp ((valid_call_iff (hletter word)).mp h).2).2
  · obtain ⟨hlength, hvalues⟩ := (valid_call_iff (hletter word)).mp h
    refine (valid_call_iff (hletter other)).mpr ⟨?_, ?_⟩
    · simpa [Tag.withLiteral, Tag.outline] using hlength
    · exact forall_literals_withLiteral.mpr ⟨(forall_literals_withLiteral.mp hvalues).1, hother⟩
  · have hchild := List.mem_of_mem_filter
      (mem_childrenOf_withLiteral tag before gap after word place)
    refine List.cons_subset.mpr ⟨?_, List.nil_subset _⟩
    exact preorder_subset_of_mem_children hchild (mem_preorder_self _)
  · obtain ⟨later, hliterals⟩ := hchildren word
    obtain ⟨rest, hcomplaints⟩ := exists_callComplaints hliterals
    exact ⟨rest, (tagComplaints_call (hletter word)).trans hcomplaints⟩

/-! ### Words that are not read -/

/-- What stands in front of a literal of a call leads a reader into the tag and leaves it there. -/
theorem exists_beforeLiteral (hspelled : (tag.withLiteral before gap after word).Spelled)
    (hid : tag.id.isSome) :
    ∃ head middle, tag.beforeLiteral before gap = head ++ middle ∧
      head ∈ {['<']} * Spelling.spacing * Spelling.tagId ∧ middle ∈ Spelling.loops .inside := by
  obtain ⟨name, hname⟩ := Option.isSome_iff_exists.mp hid
  obtain ⟨hlead, -, hgap, hgaps⟩ := spaced_withLiteral_iff.mp hspelled.1
  have hliterals := (forall_literals_withLiteral.mp hspelled.2.literals).1
  refine ⟨tag.beforeArgs, before.flatMap Argument.text ++ gap, List.append_assoc _ _ _, ?_, ?_⟩
  · rw [Tag.beforeArgs, Tag.beforeId, hname]
    have hopened : '<' :: tag.lead ∈ {['<']} * Spelling.spacing :=
      Spelling.mem_singleton_mul.mpr ⟨tag.lead, hlead, rfl⟩
    exact Language.append_mem_mul hopened (hspelled.2.id name hname)
  · refine Spelling.append_mem_loops (Spelling.args_le_inside ?_) (Spelling.gap_le_inside hgap)
    refine ⟨before.map Argument.text, List.flatMap_def, ?_⟩
    rintro _ hmem
    obtain ⟨argument, hargument, rfl⟩ := List.mem_map.mp hmem
    have hall : argument ∈ before ++ after := List.mem_append_left after hargument
    exact Language.append_mem_mul (hgaps argument hall) (hliterals argument hall)

/-- Spacing is no digit. -/
theorem isDigit_of_isSpacing {c : Char} (h : isSpacing c = true) : c.isDigit = false := by
  simp only [isSpacing, Bool.or_eq_true, beq_iff_eq] at h
  rcases h with rfl | rfl <;> rfl

/-- Behind a literal stands spacing or the end of the tag, and no digit. -/
theorem isDigit_head_behindLiteral (hspaced : (tag.withLiteral before gap after word).Spaced)
    (behind : List Char) :
    ∀ c ∈ (tag.behindLiteral after ++ behind).head?, c.isDigit = false := by
  obtain ⟨-, htail, -, hgaps⟩ := spaced_withLiteral_iff.mp hspaced
  intro c hc
  cases after with
  | nil =>
    obtain ⟨lead, id, args, tail⟩ := tag
    cases tail with
    | nil =>
      obtain rfl : '>' = c := Option.some.inj hc
      rfl
    | cons space rest =>
      obtain rfl : space = c := Option.some.inj hc
      exact isDigit_of_isSpacing (Spelling.mem_spacing.mp htail space List.mem_cons_self)
  | cons argument others =>
    have hgap := hgaps argument (List.mem_append_right before List.mem_cons_self)
    obtain ⟨hne, hspaces⟩ := Spelling.mem_gap.mp hgap
    obtain ⟨gap, literal⟩ := argument
    obtain ⟨space, rest, rfl⟩ := List.exists_cons_of_ne_nil hne
    obtain rfl : space = c := Option.some.inj hc
    exact isDigit_of_isSpacing (hspaces space List.mem_cons_self)

end Literal

end Syntax

/-! ### Sources that still compile -/

/-- Assumes: a source is read. It has a script exactly if the outline of its tree is valid. -/
theorem isSome_tryCompile_iff {source : Source} {document : Document}
    (hparses : source.Parses document) {version : FormatVersion} :
    (tryCompile version source).value.isSome ↔ document.outline.Valid := by
  obtain ⟨text, hparse, hforms⟩ := hparses.exists_text
  rw [(hforms version).1, value_compileText_of_parse hparse, Option.isSome_iff_exists]
  simp only [value_script_iff]
  exact Outline.exists_means_iff_valid

/-- A document is right where another one is. A source of the other one that compiles, in any form
and under any options, becomes one that compiles. -/
def Syntax.Document.Keeps (other document : Document) : Prop :=
  ∀ (options : Options) (source edited : Source), source.Parses document → edited.Parses other →
    (tryCompile options.formatVersion source).value.isSome →
      ∃ script, (tryCompile options.formatVersion edited).value = some script ∧
        (compile options.formatVersion edited).result = .ok script

/-- Assumes: if the outline of a document is valid, the one of another document is. -/
theorem keeps_of_valid {document other : Document}
    (h : document.outline.Valid → other.outline.Valid) : other.Keeps document := by
  intro options source edited hsource hedited hsome
  have hvalid := h ((isSome_tryCompile_iff hsource).mp hsome)
  obtain ⟨script, hscript⟩ :=
    Option.isSome_iff_exists.mp ((isSome_tryCompile_iff hedited).mpr hvalid)
  refine ⟨script, hscript, ?_⟩
  obtain ⟨text, -, hforms⟩ := hedited.exists_text
  rw [(hforms options.formatVersion).1] at hscript
  rw [(hforms options.formatVersion).2]
  exact Step.result_conclude_eq_ok_iff.mpr hscript

/-! ### Sources with another literal -/

section Replace

variable {put : Tag → Document} {front behind source : List Char} {tag : Tag}
  {before after : List Argument} {gap word other : List Char}

/-- Assumes: a tag with a literal stands in a slot of a source that is read. What the source is with
another word for the literal. -/
theorem replacedBy_literal (hslot : Slot Kind.tag Kind.document Place.start put front behind)
    (hparse : parse source = .ok (put (tag.withLiteral before gap after word))) :
    (Node.leaf .intLiteral ((Place.start.after front).after (tag.beforeLiteral before gap))
        word).replacedBy other source =
      front ++ tag.beforeLiteral before gap ++ other ++ (tag.behindLiteral after ++ behind) := by
  rw [source_eq hslot hparse text_withLiteral]
  exact Node.replacedBy_append (Place.after_append _ _ _).symm other _

/-- Assumes: a call stands in a slot of a source that is read. With a word of the grammar for one of
its literals the source is read as the tree with the word. The tree is right if the word has a
value, and otherwise the error is about the word. -/
theorem replace_literal (hslot : Slot Kind.tag Kind.document Place.start put front behind)
    (hid : tag.outline.HasLetter 'f')
    (hparse : parse source = .ok (put (tag.withLiteral before gap after word)))
    (hother : other ∈ Spelling.literal) :
    parse ((Node.leaf .intLiteral ((Place.start.after front).after (tag.beforeLiteral before gap))
        word).replacedBy other source) = .ok (put (tag.withLiteral before gap after other)) ∧
      (∀ value, Literal.value other = .ok value →
        (put (tag.withLiteral before gap after other)).Keeps
          (put (tag.withLiteral before gap after word))) ∧
      ∀ error, Literal.value other = .error error →
        (put (tag.withLiteral before gap after other)).Misses
          (put (tag.withLiteral before gap after word)) (malformedMessage other)
            ((Place.start.after front).after (tag.beforeLiteral before gap)).position := by
  have hliteral : Slot Kind.literal Kind.document Place.start
      (fun literal ↦ put (tag.withLiteral before gap after literal))
      (front ++ tag.beforeLiteral before gap) (tag.behindLiteral after ++ behind) :=
    hslot.comp (slot_literal hid before gap after (Place.start.after front))
  refine ⟨?_, fun value hvalue ↦ ?_, fun error herror ↦ ?_⟩
  · have hread : parse (front ++ tag.beforeLiteral before gap ++ Kind.literal.text other ++
        (tag.behindLiteral after ++ behind)) = .ok (put (tag.withLiteral before gap after other)) :=
      parse_put hliteral hparse (fun _ ↦ hother) fun _ ↦ rfl
    rw [replacedBy_literal hslot hparse]
    exact hread
  · exact keeps_of_valid fun hvalid ↦ hliteral.valid word other hvalid ⟨value, hvalue⟩
  · have hcomplaints := literalComplaints_eq_of_error herror
      ((Place.start.after front).after (tag.beforeLiteral before gap))
    rw [← Place.after_append] at hcomplaints ⊢
    exact misses_put hliteral (congrArg List.head? hcomplaints)

/-- Assumes: a tag with an id stands in a slot of a source that is read, and a minus without a digit
behind it. The source with it for one of the literals of the tag is not read. -/
theorem replace_literal_minus
    (hslot : Slot Kind.tag Kind.document Place.start put front behind) (hid : tag.id.isSome)
    (hparse : parse source = .ok (put (tag.withLiteral before gap after word)))
    {tail : List Char} (htail : ∀ c ∈ tail.head?, c.isDigit = false) (document : Document) :
    parse ((Node.leaf .intLiteral ((Place.start.after front).after (tag.beforeLiteral before gap))
      word).replacedBy ('-' :: tail) source) ≠ .ok document := by
  have hspelled : (tag.withLiteral before gap after word).Spelled :=
    hslot.spelled_part _ (spelled_of_parse hparse).1
  obtain ⟨head, middle, hbefore, hhead, hmiddle⟩ := exists_beforeLiteral hspelled hid
  have hdigit : ∀ c ∈ (tail ++ (tag.behindLiteral after ++ behind)).head?, c.isDigit = false := by
    cases tail with
    | nil => exact isDigit_head_behindLiteral hspelled.1 behind
    | cons c rest => exact htail
  have htext : front ++ tag.beforeLiteral before gap ++ '-' :: tail ++
      (tag.behindLiteral after ++ behind) =
        front ++ (head ++ (middle ++ '-' :: (tail ++ (tag.behindLiteral after ++ behind)))) := by
    simp [hbefore]
  rw [replacedBy_literal hslot hparse, htext]
  exact parse_ne_ok_of_minus hhead hmiddle hdigit document

end Replace

/-- The node of a tag that calls a function. -/
structure Syntax.Node.IsCall (tag : Node) : Prop where
  rule : tag.rule = .tag
  id : ∃ id ∈ tag.child? .tagId, id.text = ['f'] ∨ id.text = ['F']

theorem isCall_tag_iff {tag : Tag} {place : Place} :
    (tag.node place).IsCall ↔ tag.outline.HasLetter 'f' := by
  constructor
  · rintro ⟨-, id, hid, htext⟩
    rw [child?_tagId_tag] at hid
    obtain ⟨word, hword, rfl⟩ := Option.mem_map.mp hid
    exact htext.imp (fun hsmall ↦ hword.trans (congrArg some hsmall))
      fun hcapital ↦ hword.trans (congrArg some hcapital)
  · rintro (hid | hid)
    · refine ⟨rfl, .leaf .tagId (place.after tag.beforeId) ['f'], ?_, Or.inl rfl⟩
      rw [child?_tagId_tag]
      exact Option.mem_map_of_mem _ hid
    · refine ⟨rfl, .leaf .tagId (place.after tag.beforeId) ['F'], ?_, Or.inr rfl⟩
      rw [child?_tagId_tag]
      exact Option.mem_map_of_mem _ hid

/-- Assumes: a source is read. With a loose word for any literal of a call it is still read exactly
if the word is no minus without its digit, and then the word is the literal in the same place. The
source compiles as before if the word has a value, and otherwise the compiler names the word where
it stands. -/
theorem loose_literal {source : List Char} {document : Document}
    (hparse : parse source = .ok document) :
    ∀ tag ∈ document.node.preorder, tag.IsCall → ∀ literal ∈ tag.childrenOf .intLiteral,
      ∀ word, IsLooseWord word →
        (HasSignedDigit word → ∃ other, parse (literal.replacedBy word source) = .ok other ∧
          (∃ found ∈ other.node.preorder, found.IsCall ∧ found.place = tag.place ∧
            .leaf .intLiteral literal.place word ∈ found.childrenOf .intLiteral) ∧
          (∀ value, Literal.value word = .ok value → other.Keeps document) ∧
          ∀ error, Literal.value word = .error error →
            other.Misses document (malformedMessage word) literal.place.position) ∧
        (¬HasSignedDigit word → ∀ other, parse (literal.replacedBy word source) ≠ .ok other) := by
  intro node hnode hcall literal hliteral word hloose
  obtain ⟨put, front, behind, tag, hslot, rfl, rfl⟩ := holdsTag_of_rule hnode hcall.rule
  obtain ⟨before, gap, after, old, htag, rfl⟩ := exists_withLiteral hliteral
  have hid := isCall_tag_iff.mp hcall
  rw [← htag] at hparse
  refine ⟨fun hdigit ↦ ?_, fun hdigit other ↦ ?_⟩
  · obtain ⟨hread, hkeeps, hmisses⟩ :=
      replace_literal hslot hid hparse (mem_literal_of_hasSignedDigit hloose hdigit)
    rw [htag] at hkeeps hmisses
    let call : Tag := tag.withLiteral before gap after word
    have hcallNode : call.node (Place.start.after front) ∈ (put call).node.preorder :=
      hslot.nodes call (mem_preorder_self _)
    exact ⟨put call, hread, ⟨_, hcallNode, isCall_tag_iff.mpr hid, rfl,
      mem_childrenOf_withLiteral tag before gap after word _⟩, hkeeps, hmisses⟩
  · obtain ⟨tail, rfl, htail⟩ := exists_minus_of_not_hasSignedDigit hdigit
    have hsome : tag.id.isSome := by
      rcases hid with hid | hid <;> exact congrArg Option.isSome hid
    exact replace_literal_minus hslot hsome hparse htail other

/-- A call in a speaker name and one behind it, with a word that has no value, one that has a value,
and a minus alone. -/
theorem loose_literal_call :
    (tryCompile .v1 (.text "[dlg a [<f 1 2>]]<F 3 4>".toList)).value.isSome ∧
      FailsWith ⟨.v1, "script"⟩ (.text "[dlg a [<f 1 0xZZ>]]<F 3 4>".toList)
        "Invalid integer format: '0xZZ' is not a hexadecimal number" ⟨1, 14⟩ ∧
      (∃ script, (compile .v1 (.text "[dlg a [<f 1 2>]]<F -7 4>".toList)).result = .ok script) ∧
      ∀ other, parse "[dlg a [<f 1 2>]]<F - 4>".toList ≠ .ok other := by
  have hsome : (tryCompile .v1 (.text "[dlg a [<f 1 2>]]<F 3 4>".toList)).value.isSome := by cbv
  let name : Tag := ⟨[], some ['f'], [⟨[' '], ['1']⟩, ⟨[' '], ['2']⟩], []⟩
  let body : Tag := ⟨[], some ['F'], [⟨[' '], ['3']⟩, ⟨[' '], ['4']⟩], []⟩
  have hparse : parse "[dlg a [<f 1 2>]]<F 3 4>".toList = .ok ⟨[], [.dialog ⟨[], ['d', 'l', 'g'],
    some ⟨[' '], ['a']⟩, [' '], some [.tag name], [], [.tag body]⟩]⟩ := by cbv
  have hname := loose_literal hparse (name.node (Place.start.after "[dlg a [".toList))
    (List.mem_of_getElem? (i := 6) (by cbv)) (isCall_tag_iff.mpr (Or.inl rfl))
    (.leaf .intLiteral (Place.start.after "[dlg a [<f 1 ".toList) ['2'])
    (List.mem_of_getElem? (i := 1) (by cbv))
  have hbody := loose_literal hparse (body.node (Place.start.after "[dlg a [<f 1 2>]]".toList))
    (List.mem_of_getElem? (i := 11) (by cbv)) (isCall_tag_iff.mpr (Or.inr rfl))
    (.leaf .intLiteral (Place.start.after "[dlg a [<f 1 2>]]<F ".toList) ['3'])
    (List.mem_of_getElem? (i := 0) (by cbv))
  have hhex : IsLooseWord ['0', 'x', 'Z', 'Z'] :=
    ⟨'0', ['x', 'Z', 'Z'], rfl, Or.inl rfl, List.all_eq_true.mp rfl⟩
  have hseven : IsLooseWord ['-', '7'] := ⟨'-', ['7'], rfl, Or.inr rfl, List.all_eq_true.mp rfl⟩
  have hminus : IsLooseWord ['-'] := ⟨'-', [], rfl, Or.inr rfl, List.all_eq_true.mp rfl⟩
  refine ⟨hsome, ?_, ?_, ?_⟩
  · obtain ⟨other, hother, -, -, hmisses⟩ :=
      (hname _ hhex).1 fun tail h ↦ absurd (List.cons.inj h).1 (by decide)
    exact hmisses _ rfl ⟨.v1, "script"⟩ _ _ (.of_parse hparse) (.of_parse hother) hsome
  · obtain ⟨other, hother, -, hkeeps, -⟩ := (hbody _ hseven).1 fun tail h ↦
      ⟨'7', (List.cons.inj h).2 ▸ rfl, rfl⟩
    obtain ⟨script, -, hscript⟩ :=
      hkeeps _ rfl ⟨.v1, "script"⟩ _ _ (.of_parse hparse) (.of_parse hother) hsome
    exact ⟨script, hscript⟩
  · exact (hbody _ hminus).2 fun h ↦ absurd (h [] rfl) (by simp)

/-- A minus alone is no literal, so that it does not reach the compiler. -/
theorem loose_literal_not_read :
    ¬∀ (source : List Char) (document : Document), parse source = .ok document →
      (tryCompile .v1 (.text source)).value.isSome →
        ∀ tag ∈ document.node.preorder, tag.IsCall → ∀ literal ∈ tag.childrenOf .intLiteral,
          ∀ word, IsLooseWord word →
            ∃ other, parse (literal.replacedBy word source) = .ok other := by
  intro h
  let call : Tag := ⟨[], some ['f'], [⟨[' '], ['1']⟩, ⟨[' '], ['2']⟩], []⟩
  have hparse : parse "[sel a]<f 1 2>".toList =
      .ok ⟨[], [.selection ⟨[], ['s', 'e', 'l'], some ⟨[' '], ['a']⟩, [], [.tag call]⟩]⟩ := by cbv
  have hminus : IsLooseWord ['-'] := ⟨'-', [], rfl, Or.inr rfl, List.all_eq_true.mp rfl⟩
  obtain ⟨other, hother⟩ := h _ _ hparse (by cbv) (call.node (Place.start.after "[sel a]".toList))
    (List.mem_of_getElem? (i := 5) (by cbv)) (isCall_tag_iff.mpr (Or.inl rfl))
    (.leaf .intLiteral (Place.start.after "[sel a]<f ".toList) ['1'])
    (List.mem_of_getElem? (i := 0) (by cbv)) ['-'] hminus
  have hreplaced : (Node.leaf .intLiteral (Place.start.after "[sel a]<f ".toList) ['1']).replacedBy
      ['-'] "[sel a]<f 1 2>".toList = "[sel a]".toList ++ '<' :: "f - 2>".toList := by cbv
  have hunread : parse ("[sel a]".toList ++ '<' :: "f - 2>".toList) ≠ .ok other :=
    parse_ne_ok_of_opened (by decide) other
  rw [← hreplaced] at hunread
  exact hunread hother

end DialogueScript
