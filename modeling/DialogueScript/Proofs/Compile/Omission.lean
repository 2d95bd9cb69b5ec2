import DialogueScript.Proofs.Compile.Correctness
import DialogueScript.Proofs.Compile.Slots
import DialogueScript.Proofs.Compile.Trace
import DialogueScript.Proofs.Syntax.Brackets
import DialogueScript.Proofs.Syntax.Concatenation

/-!
# Sources without a name

The id of a tag and the identifier of a window may be left out of a source. The grammar reads the
source all the same, so that the compiler can say what is missing and where (`Document.Misses`). The
spacing on both sides of the name is then one stretch, and the tree without the name holds all of it
in one place (`Tag.withoutId`, `Dialog.withoutLabel`, `Selection.withoutLabel`). That tree stands in
the slot of the other.

A tag with literals is the exception. The spacing that should separate its first literal is read
with the spacing behind the bracket, and no literal may stand there: the source without the id is
not read at all (`missing_name`).
-/

set_option autoImplicit false
set_option relaxedAutoImplicit false

namespace DialogueScript

open Syntax

namespace Syntax

/-! ### Sources without the characters of a node -/

/-- A source without the characters of a node. -/
def Node.cutFrom (node : Node) (source : List Char) : List Char :=
  source.take node.place.offset ++ source.drop node.stop

section Around

variable {node : Node} {front : List Char} (hplace : node.place = Place.start.after front)

include hplace

theorem Node.take_offset (behind : List Char) :
    (front ++ node.text ++ behind).take node.place.offset = front := by
  have hoffset : node.place.offset = front.length := by
    rw [hplace, Place.offset_after]
    exact Nat.zero_add front.length
  rw [hoffset, List.append_assoc, List.take_left]

theorem Node.drop_stop (behind : List Char) :
    (front ++ node.text ++ behind).drop node.stop = behind := by
  have hstop : node.stop = (front ++ node.text).length := by
    rw [Node.stop, hplace, Place.offset_after, List.length_append]
    exact congrArg (· + node.text.length) (Nat.zero_add front.length)
  rw [hstop, List.drop_left]

/-- Assumes: a node stands behind a text. Cutting it joins what is around it. -/
theorem Node.cutFrom_append (behind : List Char) :
    node.cutFrom (front ++ node.text ++ behind) = front ++ behind := by
  rw [Node.cutFrom, Node.take_offset hplace, Node.drop_stop hplace]

end Around

/-! ### Trees without a name -/

/-- A tag that has neither an id nor literals, with the spacing of the tag in one place. -/
def Tag.withoutId (tag : Tag) : Tag :=
  ⟨tag.lead ++ tag.tail, none, [], []⟩

/-- A dialog window without its label. Its spacing stands in front of the speaker. -/
def Dialog.withoutLabel (window : Dialog) : Dialog :=
  { window with label := none, gap := (window.label.map Label.gap).getD [] ++ window.gap }

/-- A selection window without its label. Its spacing stands in front of the closing bracket. -/
def Selection.withoutLabel (window : Selection) : Selection :=
  { window with label := none, tail := (window.label.map Label.gap).getD [] ++ window.tail }

theorem append_mem_spacing {first second : List Char} (hfirst : first ∈ Spelling.spacing)
    (hsecond : second ∈ Spelling.spacing) : first ++ second ∈ Spelling.spacing :=
  Spelling.mem_spacing.mpr (List.forall_mem_append.mpr
    ⟨Spelling.mem_spacing.mp hfirst, Spelling.mem_spacing.mp hsecond⟩)

/-- The spacing of a label is spacing, and so is that of an absent one. -/
theorem labelGap_mem_spacing {label : Option Label} (h : ∀ l ∈ label, l.gap ∈ Spelling.gap) :
    (label.map Label.gap).getD [] ∈ Spelling.spacing := by
  cases label with
  | none => exact Language.nil_mem_kstar _
  | some label => exact Spelling.mem_spacing.mpr (Spelling.mem_gap.mp (h label rfl)).2

theorem spelled_withoutId {tag : Tag} (h : tag.Spelled) : tag.withoutId.Spelled :=
  ⟨⟨append_mem_spacing h.1.lead h.1.tail, List.forall_mem_nil _, Language.nil_mem_kstar _⟩,
    nofun, List.forall_mem_nil _, fun _ ↦ rfl⟩

theorem settle_withoutId (tag : Tag) : tag.withoutId.settle = tag.withoutId := by
  simp [Tag.withoutId, Tag.settle]

theorem spelled_dialog_withoutLabel {window : Dialog} (h : (Window.dialog window).Spelled) :
    (Window.dialog window.withoutLabel).Spelled := by
  obtain ⟨⟨hlead, hkeyword, hlabel, hgap, hspeaker, htail, hbody⟩, -, hname, hwell⟩ := h
  have hspacing := append_mem_spacing (labelGap_mem_spacing hlabel) hgap
  exact ⟨⟨hlead, hkeyword, nofun, hspacing, hspeaker, htail, hbody⟩, nofun, hname, hwell⟩

theorem settle_dialog_withoutLabel {window : Dialog}
    (h : (Window.dialog window).settle = .dialog window) :
    (Window.dialog window.withoutLabel).settle = .dialog window.withoutLabel := by
  obtain ⟨hname, htail, hbody⟩ := settle_dialog_iff.mp h
  exact settle_dialog_iff.mpr ⟨hname, htail, hbody⟩

theorem spelled_selection_withoutLabel {window : Selection}
    (h : (Window.selection window).Spelled) : (Window.selection window.withoutLabel).Spelled := by
  obtain ⟨⟨hlead, hkeyword, hlabel, htail, hbody⟩, -, hwell⟩ := h
  have hspacing := append_mem_spacing (labelGap_mem_spacing hlabel) htail
  exact ⟨⟨hlead, hkeyword, nofun, hspacing, hbody⟩, nofun, hwell⟩

theorem settle_selection_withoutLabel {window : Selection}
    (h : (Window.selection window).settle = .selection window) :
    (Window.selection window.withoutLabel).settle = .selection window.withoutLabel := by
  have hbody := congrArg Selection.body (Window.selection.inj h)
  exact congrArg (fun body ↦ Window.selection { window.withoutLabel with body }) hbody

end Syntax

/-! ### Failures -/

/-- Whichever way a source is compiled, it fails with one error, which is about a position. -/
structure FailsWith (options : Options) (source : Source) (message : String)
    (position : Position) : Prop where
  tried : (tryCompile options.formatVersion source).value = none
  compiled : (compile options.formatVersion source).result = .error .failed
  errors : ∀ findings ∈ [(tryCompile options.formatVersion source).findings,
      (compile options.formatVersion source).findings],
    eventsAt .error (findings.map (·.toEvent options.channel)) =
      [⟨options.channel, .error, message, some position⟩]

/-- Assumes: a source is read, and there is something to complain about. It fails with the first
complaint. -/
theorem failsWith_of_head? {source : Source} {document : Document}
    (hparses : source.Parses document) {first : Complaint}
    (hfirst : document.node.complaints.head? = some first) (options : Options) :
    FailsWith options source first.message first.position := by
  obtain ⟨text, hparse, hforms⟩ := hparses.exists_text
  obtain ⟨htry, hcompile⟩ := hforms options.formatVersion
  have hnone : (compileText options.formatVersion text).value = none := by
    rw [value_compileText_of_parse hparse, ← Option.not_isSome_iff_eq_none,
      (reports_script document options.formatVersion).isSome_value_iff]
    intro hnil
    rw [hnil] at hfirst
    exact absurd hfirst nofun
  have htraces := tracesPreorder_compileText options.formatVersion options.channel hparse
  obtain ⟨complaint, hcomplaint, herrors, -⟩ := htraces.stopped hnone
  obtain rfl := Option.some.inj (hfirst.symm.trans hcomplaint)
  refine ⟨by rw [htry, hnone], by rw [hcompile, Step.conclude, hnone], ?_⟩
  rw [htry, hcompile]
  intro findings hfindings
  have hsame : findings = (compileText options.formatVersion text).findings := by
    simpa [Step.conclude] using hfindings
  rw [hsame]
  exact herrors

/-- A document lacks something that another one has. A source of the other one that compiles, in
any form and under any options, becomes one that fails with an error about a position. -/
def Syntax.Document.Misses (other document : Document) (message : String)
    (position : Position) : Prop :=
  ∀ (options : Options) (source edited : Source), source.Parses document → edited.Parses other →
    (tryCompile options.formatVersion source).value.isSome →
      FailsWith options edited message position

/-- Assumes: if nothing is wrong with a document, something is wrong with another. -/
theorem misses_of_head? {document other : Document} {first : Complaint}
    (h : document.node.complaints = [] → other.node.complaints.head? = some first) :
    other.Misses document first.message first.position := by
  intro options source edited hsource hedited hsome
  obtain ⟨text, hparse, hforms⟩ := hsource.exists_text
  rw [(hforms options.formatVersion).1, value_compileText_of_parse hparse,
    (reports_script document options.formatVersion).isSome_value_iff] at hsome
  exact failsWith_of_head? hedited (h hsome) options

/-! ### Putting another part into a slot -/

section Put

variable {α : Type} {part : Kind α} {put : α → Document} {front behind : List Char} {a other : α}

/-- Assumes: what stands in a slot of a source that is read, and something else that is spelled and
settled if it is. The source with the other part in the slot is read as the tree with it. -/
theorem parse_put (hslot : Slot part Kind.document Place.start put front behind)
    {source : List Char} (hparse : parse source = .ok (put a))
    (hspelled : part.Spelled a → part.Spelled other)
    (hsettled : part.settle a = a → part.settle other = other) :
    parse (front ++ part.text other ++ behind) = .ok (put other) := by
  have hwhole : (put a).Spelled := (spelled_of_parse hparse).1
  have hput : (put other).Spelled :=
    hslot.spelled a other hwhole (hspelled (hslot.spelled_part a hwhole))
  have hsettle : (put a).settle = put a := settle_of_parse hparse
  have hputSettle : (put other).settle = put other :=
    hslot.settle a other hsettle (hsettled (hslot.settle_part a hsettle))
  have htext : (put other).text = front ++ part.text other ++ behind := hslot.text other
  rw [← htext, parse_text hput, hputSettle]

/-- Assumes: the first thing that is wrong with a part. It is what a source with the part in a slot
misses, if nothing was wrong before. -/
theorem misses_put (hslot : Slot part Kind.document Place.start put front behind)
    {message : String} {position : Position}
    (hfirst : (part.complaints other (Place.start.after front)).head? = some ⟨message, position⟩) :
    (put other).Misses (put a) message position := by
  obtain ⟨before, hcomplaints⟩ := hslot.complaints
  refine @misses_of_head? _ _ ⟨message, position⟩ fun hright ↦ ?_
  obtain ⟨later, hwhole⟩ := hcomplaints a
  obtain ⟨otherLater, hother⟩ := hcomplaints other
  have hnone : before ++ part.complaints a (Place.start.after front) ++ later = [] :=
    hwhole.symm.trans hright
  have hbefore : before = [] := (List.append_eq_nil_iff.mp (List.append_eq_nil_iff.mp hnone).1).1
  change (Kind.document.complaints (put other) Place.start).head? = _
  rw [hother, hbefore, List.nil_append, List.head?_append, hfirst]
  rfl

variable {rule : Rule} {source before word rest : List Char}

/-- Assumes: what stands in a slot of a source that is read, and a word in it. The source is the
word with what is around it. -/
theorem source_eq (hslot : Slot part Kind.document Place.start put front behind)
    (hparse : parse source = .ok (put a)) (htext : part.text a = before ++ word ++ rest) :
    source = front ++ before ++ word ++ (rest ++ behind) := by
  have hwhole : (put a).text = front ++ part.text a ++ behind := hslot.text a
  rw [← (spelled_of_parse hparse).2, hwhole, htext]
  simp only [List.append_assoc]

/-- Assumes: what stands in a slot of a source that is read, and a word in it. What the source is
without the word. -/
theorem cutFrom_word (hslot : Slot part Kind.document Place.start put front behind)
    (hparse : parse source = .ok (put a)) (htext : part.text a = before ++ word ++ rest) :
    (Node.leaf rule ((Place.start.after front).after before) word).cutFrom source =
      front ++ (before ++ rest) ++ behind := by
  have hplace : (Node.leaf rule ((Place.start.after front).after before) word).place =
      Place.start.after (front ++ before) := (Place.after_append _ _ _).symm
  have hcut := Node.cutFrom_append hplace (rest ++ behind)
  rw [source_eq hslot hparse htext]
  refine hcut.trans ?_
  simp only [List.append_assoc]

/-- Assumes: what stands in a slot of a source that is read, a word in it, and something else that
lacks the word, is spelled and settled if the first is, and has something wrong with it where it
begins. The source without the word is read, and misses it. -/
theorem exists_cut_word (hslot : Slot part Kind.document Place.start put front behind)
    (hparse : parse source = .ok (put a)) (htext : part.text a = before ++ word ++ rest)
    (hother : part.text other = before ++ rest) (hspelled : part.Spelled a → part.Spelled other)
    (hsettled : part.settle a = a → part.settle other = other) {message : String}
    (hfirst : (part.complaints other (Place.start.after front)).head? =
      some ⟨message, (Place.start.after front).position⟩) :
    ∃ found, parse ((Node.leaf rule ((Place.start.after front).after before) word).cutFrom
        source) = .ok found ∧
      found.Misses (put a) message (Place.start.after front).position := by
  refine ⟨put other, ?_, misses_put hslot hfirst⟩
  rw [cutFrom_word hslot hparse htext, ← hother]
  exact parse_put hslot hparse hspelled hsettled

end Put

/-! ### Tags -/

theorem tagComplaints_withoutId (tag : Tag) (place : Place) :
    (tag.withoutId.node place).tagComplaints = [⟨"Expected tag id", place.position⟩] := by
  rw [Node.tagComplaints, child?_tagId_tag]
  rfl

theorem childrenOf_intLiteral_eq_nil_iff {tag : Tag} {place : Place} :
    (tag.node place).childrenOf .intLiteral = [] ↔ tag.args = [] := by
  rw [childrenOf_intLiteral_tag, List.map_eq_nil_iff, Tag.literals, List.map_eq_nil_iff]
  cases tag.args <;> simp [locate]

/-- A literal begins with a character that may not stand behind the bracket of a tag. -/
theorem exists_cons_of_mem_literal {literal : List Char} (h : literal ∈ Spelling.literal) :
    ∃ c rest, literal = c :: rest ∧ isSpacing c = false ∧ c.isAlpha = false ∧ c ≠ '>' := by
  obtain ⟨sign, head, tail, rfl, hsign, hhead, -⟩ := Spelling.mem_literal.mp h
  rcases hsign with rfl | rfl
  · refine ⟨head, tail, rfl, ?_, ?_, ?_⟩
    · exact (stops_cons isSpacing head tail).mp (stops_spacing_cons rfl rfl hhead tail)
    · simp only [Char.isDigit, Char.isAlpha, Char.isUpper, Char.isLower, Bool.and_eq_true,
        decide_eq_true_eq, UInt32.le_iff_toNat_le, Bool.or_eq_false_iff, Bool.and_eq_false_iff,
        decide_eq_false_iff_not] at hhead ⊢
      have hnine : '9'.val.toNat = 57 := rfl
      have hlower : 'a'.val.toNat = 97 := rfl
      have hupper : 'A'.val.toNat = 65 := rfl
      omega
    · rintro rfl
      exact absurd hhead (by decide)
  · exact ⟨'-', head :: tail, rfl, by decide, by decide, by decide⟩

/-- Assumes: a tag with an id stands in a slot of a source that is read. The source without the id
is read exactly if the tag has no literals. -/
theorem cut_tagId {put : Tag → Document} {front behind source : List Char} {tag : Tag}
    (hslot : Slot Kind.tag Kind.document Place.start put front behind)
    (hparse : parse source = .ok (put tag)) {word : List Char} (hid : tag.id = some word) :
    (tag.args = [] →
      ∃ found, parse ((Node.leaf .tagId ((Place.start.after front).after tag.beforeId)
          word).cutFrom source) = .ok found ∧
        found.Misses (put tag) "Expected tag id" (Place.start.after front).position) ∧
    (tag.args ≠ [] →
      ∀ found, parse ((Node.leaf .tagId ((Place.start.after front).after tag.beforeId)
        word).cutFrom source) ≠ .ok found) := by
  have htext : Kind.tag.text tag = tag.beforeId ++ word ++
      (tag.args.flatMap Argument.text ++ (tag.tail ++ ['>'])) := by
    simp [Kind.tag, Tag.text, Tag.beforeArgs, hid]
  refine ⟨fun hargs ↦ ?_, fun hargs found ↦ ?_⟩
  · have hother : Kind.tag.text tag.withoutId =
        tag.beforeId ++ (tag.args.flatMap Argument.text ++ (tag.tail ++ ['>'])) := by
      simp [Kind.tag, hargs, Tag.withoutId, Tag.text, Tag.beforeArgs, Tag.beforeId]
    have hfirst : (Kind.tag.complaints tag.withoutId (Place.start.after front)).head? =
        some ⟨"Expected tag id", (Place.start.after front).position⟩ :=
      congrArg List.head? (tagComplaints_withoutId tag (Place.start.after front))
    exact exists_cut_word hslot hparse htext hother spelled_withoutId
      (fun _ ↦ settle_withoutId tag) hfirst
  · have hspelled : tag.Spelled := hslot.spelled_part tag (spelled_of_parse hparse).1
    obtain ⟨argument, later, hcons⟩ := List.exists_cons_of_ne_nil hargs
    have hmem : argument ∈ tag.args := hcons ▸ List.mem_cons_self
    have hgap := (Spelling.mem_gap.mp (hspelled.1.args argument hmem)).2
    -- the spacing in front of the first literal joins the spacing behind the bracket
    have hspaces := append_mem_spacing hspelled.1.lead (Spelling.mem_spacing.mpr hgap)
    have hliteral : argument.literal ∈ Spelling.literal :=
      hspelled.2.literals _ (List.mem_map_of_mem hmem)
    obtain ⟨c, rest, hfirst, hspacing, hletter, hend⟩ := exists_cons_of_mem_literal hliteral
    have hstray : front ++ (tag.beforeId ++ (tag.args.flatMap Argument.text ++
        (tag.tail ++ ['>']))) ++ behind = front ++ '<' :: ((tag.lead ++ argument.gap) ++ c ::
          (rest ++ (later.flatMap Argument.text ++ (tag.tail ++ ['>'] ++ behind)))) := by
      simp [hcons, Tag.beforeId, Argument.text, hfirst]
    rw [cutFrom_word hslot hparse htext, hstray]
    exact parse_ne_ok_of_stray hspaces hspacing hletter hend found

/-! ### Windows -/

theorem child?_identifier_dialog (window : Dialog) (place : Place) :
    (window.node place).child? .identifier =
      window.label.map (·.node (place.after window.beforeLabel)) := by
  obtain ⟨lead, keyword, label, gap, speaker, tail, body⟩ := window
  cases label <;> cases speaker <;> rfl

theorem child?_identifier_selection (window : Selection) (place : Place) :
    (window.node place).child? .identifier =
      window.label.map (·.node (place.after window.beforeLabel)) := by
  obtain ⟨lead, keyword, label, tail, body⟩ := window
  cases label <;> rfl

section Windows

variable {put : Syntax.Window → Document} {front behind source : List Char} {name : Node}

/-- Assumes: a dialog window with an identifier stands in a slot of a source that is read. The
source without the identifier is read, and misses it. -/
theorem cut_identifier_dialog {window : Dialog}
    (hslot : Slot Kind.window Kind.document Place.start put front behind)
    (hparse : parse source = .ok (put (.dialog window)))
    (hname : name ∈ (window.node (Place.start.after front)).child? .identifier) :
    ∃ found, parse (name.cutFrom source) = .ok found ∧
      found.Misses (put (.dialog window)) "Expected dialog window name"
        (Place.start.after front).position := by
  rw [child?_identifier_dialog] at hname
  obtain ⟨label, hlabel, rfl⟩ := Option.mem_map.mp hname
  have hsome : window.label = some label := hlabel
  have htext : Kind.window.text (.dialog window) =
      window.beforeLabel ++ label.gap ++ label.identifier ++
        (window.gap ++ ((window.speaker.map speakerText).getD [] ++
          (window.tail ++ ([']'] ++ window.body.text)))) := by
    simp [Kind.window, Window.text, Dialog.text, Dialog.header, Dialog.beforeSpeaker, hsome,
      Label.text]
  have hother : Kind.window.text (.dialog window.withoutLabel) =
      window.beforeLabel ++ label.gap ++
        (window.gap ++ ((window.speaker.map speakerText).getD [] ++
          (window.tail ++ ([']'] ++ window.body.text)))) := by
    simp [Kind.window, Window.text, Dialog.text, Dialog.header, Dialog.beforeSpeaker,
      Dialog.beforeLabel, Dialog.withoutLabel, hsome]
  have hfirst : (Kind.window.complaints (.dialog window.withoutLabel)
      (Place.start.after front)).head? =
        some ⟨"Expected dialog window name", (Place.start.after front).position⟩ := by
    rw [complaints_dialog]
    rfl
  rw [Label.node, Label.identifierPlace, ← Place.after_append]
  exact exists_cut_word hslot hparse htext hother spelled_dialog_withoutLabel
    settle_dialog_withoutLabel hfirst

/-- Assumes: a selection window with an identifier stands in a slot of a source that is read. The
source without the identifier is read, and misses it. -/
theorem cut_identifier_selection {window : Selection}
    (hslot : Slot Kind.window Kind.document Place.start put front behind)
    (hparse : parse source = .ok (put (.selection window)))
    (hname : name ∈ (window.node (Place.start.after front)).child? .identifier) :
    ∃ found, parse (name.cutFrom source) = .ok found ∧
      found.Misses (put (.selection window)) "Expected selection window name"
        (Place.start.after front).position := by
  rw [child?_identifier_selection] at hname
  obtain ⟨label, hlabel, rfl⟩ := Option.mem_map.mp hname
  have hsome : window.label = some label := hlabel
  have htext : Kind.window.text (.selection window) =
      window.beforeLabel ++ label.gap ++ label.identifier ++
        (window.tail ++ ([']'] ++ window.body.text)) := by
    simp [Kind.window, Window.text, Selection.text, Selection.header, hsome, Label.text]
  have hother : Kind.window.text (.selection window.withoutLabel) =
      window.beforeLabel ++ label.gap ++ (window.tail ++ ([']'] ++ window.body.text)) := by
    simp [Kind.window, Window.text, Selection.text, Selection.header, Selection.beforeLabel,
      Selection.withoutLabel, hsome]
  have hfirst : (Kind.window.complaints (.selection window.withoutLabel)
      (Place.start.after front)).head? =
        some ⟨"Expected selection window name", (Place.start.after front).position⟩ := by
    rw [complaints_selection]
    rfl
  rw [Label.node, Label.identifierPlace, ← Place.after_append]
  exact exists_cut_word hslot hparse htext hother spelled_selection_withoutLabel
    settle_selection_withoutLabel hfirst

end Windows

/-! ### Sources -/

/-- A text that the grammar reads is a source that is read, since it has no mark to drop. -/
theorem Source.Parses.of_parse {text : List Char} {document : Document}
    (hparse : parse text = .ok document) : (Source.text text).Parses document := by
  obtain ⟨hspelled, rfl⟩ := spelled_of_parse hparse
  refine .text ?_
  rw [dropMark_text hspelled.1]
  exact hparse

/-- Assumes: a source is read. Without the identifier of any of its windows it is still read, and
the compiler misses the identifier at the window. Without the id of any of its tags it is still read
exactly if the tag has no literals, and the compiler misses the id at the tag. -/
theorem missing_name {source : List Char} {document : Document}
    (hparse : parse source = .ok document) :
    (∀ tag ∈ document.node.preorder, tag.rule = .tag → ∀ id ∈ tag.child? .tagId,
      (tag.childrenOf .intLiteral = [] → ∃ other, parse (id.cutFrom source) = .ok other ∧
        other.Misses document "Expected tag id" tag.place.position) ∧
      (tag.childrenOf .intLiteral ≠ [] → ∀ other, parse (id.cutFrom source) ≠ .ok other)) ∧
    (∀ window ∈ document.node.preorder, window.rule = .dialogWindow →
      ∀ name ∈ window.child? .identifier, ∃ other, parse (name.cutFrom source) = .ok other ∧
        other.Misses document "Expected dialog window name" window.place.position) ∧
    (∀ window ∈ document.node.preorder, window.rule = .selectionWindow →
      ∀ name ∈ window.child? .identifier, ∃ other, parse (name.cutFrom source) = .ok other ∧
        other.Misses document "Expected selection window name" window.place.position) := by
  refine ⟨?_, ?_, ?_⟩
  · intro node hnode hrule id hid
    obtain ⟨put, front, behind, tag, hslot, rfl, rfl⟩ := holdsTag_of_rule hnode hrule
    rw [child?_tagId_tag] at hid
    obtain ⟨word, hword, rfl⟩ := Option.mem_map.mp hid
    rw [ne_eq, childrenOf_intLiteral_eq_nil_iff]
    exact cut_tagId hslot hparse hword
  · intro node hnode hrule name hname
    obtain ⟨put, front, behind, window, hslot, rfl, rfl⟩ := exists_slot_dialog hnode hrule
    exact cut_identifier_dialog hslot hparse hname
  · intro node hnode hrule name hname
    obtain ⟨put, front, behind, window, hslot, rfl, rfl⟩ := exists_slot_selection hnode hrule
    exact cut_identifier_selection hslot hparse hname

/-- The tag in a speaker name may lose its id, and the window its identifier. The tag with literals
may not lose its id. -/
theorem missing_name_call :
    (tryCompile .v1 (.text "[dlg a [<n>]]<f 1 2>".toList)).value.isSome ∧
      FailsWith ⟨.v1, "script"⟩ (.text "[dlg a [<>]]<f 1 2>".toList) "Expected tag id" ⟨1, 9⟩ ∧
      FailsWith ⟨.v1, "script"⟩ (.text "[dlg  [<n>]]<f 1 2>".toList) "Expected dialog window name"
        ⟨1, 1⟩ ∧
      ∀ other, parse "[dlg a [<n>]]< 1 2>".toList ≠ .ok other := by
  have hsome : (tryCompile .v1 (.text "[dlg a [<n>]]<f 1 2>".toList)).value.isSome := by cbv
  let newLine : Tag := ⟨[], some ['n'], [], []⟩
  let call : Tag := ⟨[], some ['f'], [⟨[' '], ['1']⟩, ⟨[' '], ['2']⟩], []⟩
  let window : Dialog := ⟨[], ['d', 'l', 'g'], some ⟨[' '], ['a']⟩, [' '], some [.tag newLine], [],
    [.tag call]⟩
  have hparse : parse "[dlg a [<n>]]<f 1 2>".toList = .ok ⟨[], [.dialog window]⟩ := by cbv
  obtain ⟨htags, hdialogs, -⟩ := missing_name hparse
  have hnewLine := htags (newLine.node (Place.start.after "[dlg a [".toList))
    (List.mem_of_getElem? (i := 6) (by cbv)) rfl _ rfl
  have hcall := htags (call.node (Place.start.after "[dlg a [<n>]]".toList))
    (List.mem_of_getElem? (i := 9) (by cbv)) rfl _ rfl
  have hwindow := hdialogs (window.node Place.start) (List.mem_of_getElem? (i := 2) (by cbv)) rfl
    _ rfl
  refine ⟨hsome, ?_, ?_, ?_⟩
  · obtain ⟨other, hother, hmisses⟩ := hnewLine.1 rfl
    exact hmisses ⟨.v1, "script"⟩ _ _ (.of_parse hparse) (.of_parse hother) hsome
  · obtain ⟨other, hother, hmisses⟩ := hwindow
    exact hmisses ⟨.v1, "script"⟩ _ _ (.of_parse hparse) (.of_parse hother) hsome
  · exact hcall.2 (List.cons_ne_nil _ _)

/-- The spacing behind an id that is left out is not spacing in front of a literal. -/
theorem missing_name_not_read :
    ¬∀ (source : List Char) (document : Document), parse source = .ok document →
      ∀ tag ∈ document.node.preorder, tag.rule = .tag → ∀ id ∈ tag.child? .tagId,
        ∃ other, parse (id.cutFrom source) = .ok other := by
  intro h
  let call : Tag := ⟨[], some ['f'], [⟨[' '], ['1']⟩, ⟨[' '], ['2']⟩], []⟩
  have hparse : parse "[sel a]<f 1 2>".toList =
      .ok ⟨[], [.selection ⟨[], ['s', 'e', 'l'], some ⟨[' '], ['a']⟩, [], [.tag call]⟩]⟩ := by cbv
  obtain ⟨other, hother⟩ := h _ _ hparse (call.node (Place.start.after "[sel a]".toList))
    (List.mem_of_getElem? (i := 5) (by cbv)) rfl _ rfl
  have hcut : (Node.leaf .tagId (Place.start.after "[sel a]<".toList) ['f']).cutFrom
      "[sel a]<f 1 2>".toList = "[sel a]".toList ++ '<' :: ([' '] ++ '1' :: " 2>".toList) := by cbv
  have hspaces : [' '] ∈ Spelling.spacing :=
    Spelling.mem_spacing.mpr (List.forall_mem_singleton.mpr rfl)
  have hstray : parse ("[sel a]".toList ++ '<' :: ([' '] ++ '1' :: " 2>".toList)) ≠ .ok other :=
    parse_ne_ok_of_stray hspaces rfl rfl (by decide) other
  rw [← hcut] at hstray
  exact hstray hother

end DialogueScript
