import DialogueScript.Proofs.Syntax.Completeness
import DialogueScript.Proofs.Syntax.Unambiguity
import DialogueScript.Proofs.Text.Position

/-!
# Where the nodes of a syntax tree stand

The node of a document shows each part of its source where it stands. A node spans the characters
from its offset on, as many as its text has; these are its text (`Node.Exact`). Its parts are inside
its span, one behind another, and the line and column of a node are those which one counts when one
reads the source up to its offset.

`Node.Fills` says how nodes come to stand where they stand: they fill a text from left to right,
where characters between them belong to no node, and the children of a node fill its text. The nodes
of each construct do so (`fills_tag`, `fills_text`, `fills_window`, `fills_document`). What fills a
part of a source is exact in the source, to any depth (`Node.Fills.exact`), and its offsets never go
back (`Node.Fills.bounds_preorder`).
-/

set_option autoImplicit false
set_option relaxedAutoImplicit false

namespace DialogueScript.Syntax

/-! ### Spans -/

namespace Node

/-- The offset behind a node. -/
def stop (node : Node) : Nat :=
  node.place.offset + node.text.length

/-- A node and all nodes below it, each in front of its parts. -/
def preorder : Node → List Node
  | ⟨rule, place, text, children⟩ =>
    ⟨rule, place, text, children⟩ :: (children.map preorder).flatten

theorem preorder_eq (node : Node) : node.preorder = node :: node.children.flatMap preorder := by
  obtain ⟨rule, place, text, children⟩ := node
  rw [preorder, List.flatMap_def]

/-- A node is made up of tags and runs. Its text is theirs, no two runs stand next to each other,
and no run is empty. -/
structure Interleaves (node : Node) : Prop where
  text : node.text = node.children.flatMap Node.text
  rules : ∀ child ∈ node.children, child.rule = .tag ∨ child.rule = .text
  runs : node.children.IsChain fun first second ↦ ¬(first.rule = .text ∧ second.rule = .text)
  ne_nil : ∀ child ∈ node.children, child.rule = .text → child.text ≠ []

/-- A node stands in a source where it says: its text is the source between its bounds, its position
is found by reading the source in front of it, and its parts are inside its bounds, one behind
another. A text with tags is made up of its tags and runs. -/
structure Exact (source : List Char) (node : Node) : Prop where
  stop_le : node.stop ≤ source.length
  text : node.text = (source.drop node.place.offset).take node.text.length
  position : node.place.position = Position.start.scan (source.take node.place.offset)
  inside : ∀ child ∈ node.children, node.place.offset ≤ child.place.offset ∧ child.stop ≤ node.stop
  apart : node.children.Pairwise fun first second ↦ first.stop ≤ second.place.offset
  interleaves : node.rule = .tagText → node.Interleaves

/-- Nodes fill a text that stands behind another one. -/
inductive Fills : List Char → List Char → List Node → Prop
  /-- Characters that belong to no node. -/
  | gap (before text : List Char) : Fills before text []
  /-- A node whose children fill its text. -/
  | node {before text : List Char} {children : List Node} (rule : Rule)
      (hchildren : Fills before text children)
      (htext : rule = .tagText → Interleaves ⟨rule, Place.start.after before, text, children⟩) :
      Fills before text [⟨rule, Place.start.after before, text, children⟩]
  /-- Nodes that fill a text behind nodes that fill another. -/
  | append {before first second : List Char} {nodes later : List Node}
      (hfirst : Fills before first nodes) (hsecond : Fills (before ++ first) second later) :
      Fills before (first ++ second) (nodes ++ later)

namespace Fills

variable {before text gap : List Char} {nodes : List Node}

/-- Nodes fill a text with more characters behind it. -/
theorem append_gap (h : Fills before text nodes) (gap : List Char) :
    Fills before (text ++ gap) nodes := by
  have happend := h.append (Fills.gap (before ++ text) gap)
  rwa [List.append_nil] at happend

/-- Nodes fill a text with more characters in front of it. -/
theorem gap_append (h : Fills (before ++ gap) text nodes) : Fills before (gap ++ text) nodes :=
  (Fills.gap before gap).append h

/-- The nodes of a text are inside of it, and each of them in front of the next. -/
theorem bounds (h : Fills before text nodes) :
    (∀ node ∈ nodes, before.length ≤ node.place.offset ∧
        node.stop ≤ before.length + text.length) ∧
      nodes.Pairwise fun first second ↦ first.stop ≤ second.place.offset := by
  induction h with
  | gap before text => simp
  | node rule => simp [Place.start, stop]
  | append _ _ ihFirst ihSecond =>
    simp only [List.length_append] at ihSecond ⊢
    refine ⟨List.forall_mem_append.mpr ⟨fun node hnode ↦ ?_, fun node hnode ↦ ?_⟩, ?_⟩
    · have hbounds := ihFirst.1 node hnode
      omega
    · have hbounds := ihSecond.1 node hnode
      omega
    · refine List.pairwise_append.mpr ⟨ihFirst.2, ihSecond.2, fun node hnode later hlater ↦ ?_⟩
      have hbounds := ihFirst.1 node hnode
      have hbehind := ihSecond.1 later hlater
      omega

/-- The same holds of all nodes below, except that a node is not in front of its parts but begins
where or before they begin. -/
theorem bounds_preorder (h : Fills before text nodes) :
    (∀ node ∈ nodes.flatMap preorder, before.length ≤ node.place.offset ∧
        node.stop ≤ before.length + text.length) ∧
      (nodes.flatMap preorder).Pairwise fun first second ↦
        first.place.offset ≤ second.place.offset := by
  induction h with
  | gap before text => simp
  | @node before text children rule _ _ ih =>
    have hself : before.length ≤ (Place.start.after before).offset ∧
        (Place.start.after before).offset + text.length ≤ before.length + text.length := by
      simp [Place.start]
    rw [List.flatMap_cons, List.flatMap_nil, List.append_nil, preorder_eq]
    refine ⟨List.forall_mem_cons.mpr ⟨hself, ih.1⟩, List.pairwise_cons.mpr ⟨?_, ih.2⟩⟩
    intro node hnode
    have hbounds := (ih.1 node hnode).1
    simpa [Place.start] using hbounds
  | append _ _ ihFirst ihSecond =>
    simp only [List.length_append, List.flatMap_append] at ihSecond ⊢
    refine ⟨List.forall_mem_append.mpr ⟨fun node hnode ↦ ?_, fun node hnode ↦ ?_⟩, ?_⟩
    · have hbounds := ihFirst.1 node hnode
      omega
    · have hbounds := ihSecond.1 node hnode
      omega
    · refine List.pairwise_append.mpr ⟨ihFirst.2, ihSecond.2, fun node hnode later hlater ↦ ?_⟩
      have hbounds := ihFirst.1 node hnode
      have hbehind := ihSecond.1 later hlater
      unfold stop at hbounds
      omega

/-- Nodes that fill a part of a source stand in it where they say, and so do all nodes below. The
induction is on how the text is filled, with what stands around it. -/
theorem exact (h : Fills before text nodes) (behind : List Char) :
    ∀ node ∈ nodes.flatMap preorder, node.Exact (before ++ text ++ behind) := by
  induction h generalizing behind with
  | gap before text => simp
  | @node before text children rule hchildren htext ih =>
    have hoffset : (Place.start.after before).offset = before.length := by simp [Place.start]
    obtain ⟨hinside, hapart⟩ := hchildren.bounds
    rw [List.flatMap_cons, List.flatMap_nil, List.append_nil, preorder_eq]
    refine List.forall_mem_cons.mpr ⟨⟨?_, ?_, ?_, ?_, hapart, htext⟩, ih behind⟩
    · simp only [stop, hoffset, List.length_append]
      omega
    · simp only [hoffset, List.append_assoc, List.drop_left, List.take_left]
    · simp only [hoffset, List.append_assoc, List.take_left, Position.scan_eq_after]
      rfl
    · intro child hchild
      simpa only [stop, hoffset] using hinside child hchild
  | @append before first second nodes later _ _ ihFirst ihSecond =>
    rw [List.flatMap_append]
    refine List.forall_mem_append.mpr ⟨?_, ?_⟩
    · simpa only [List.append_assoc] using ihFirst (second ++ behind)
    · simpa only [List.append_assoc] using ihSecond behind

end Fills

end Node

/-! ### The nodes of each construct -/

open Node

variable {before : List Char}

/-- A word fills its text. -/
theorem fills_leaf (rule : Rule) (hrule : rule ≠ .tagText) (before text : List Char) :
    Fills before text [.leaf rule (Place.start.after before) text] :=
  .node rule (.gap before text) fun h ↦ absurd h hrule

/-- Assumes: a part that may be absent has a node that fills its text. -/
theorem fills_option {α : Type} {part : Option α} {text : α → List Char} {node : α → Node}
    (h : ∀ value ∈ part, Fills before (text value) [node value]) :
    Fills before ((part.map text).getD []) (part.toList.map node) := by
  cases part with
  | none => exact .gap before []
  | some value => exact h value rfl

/-- Assumes: a thing of a list has a node that fills its text, wherever it stands. The nodes of all
of them fill their texts. -/
theorem fills_locate {α : Type} {text : α → List Char} {node : Located α → Node} {values : List α}
    (h : ∀ value ∈ values, ∀ before,
      Fills before (text value) [node ⟨Place.start.after before, value⟩]) (before : List Char) :
    Fills before (values.flatMap text)
      ((locate text (Place.start.after before) values).map node) := by
  induction values generalizing before with
  | nil => exact .gap before []
  | cons value rest ih =>
    have hrest := ih (fun later hlater ↦ h later (List.mem_cons_of_mem value hlater))
      (before ++ text value)
    rw [Place.after_append] at hrest
    exact (h value List.mem_cons_self before).append hrest

theorem fills_tag (tag : Tag) (before : List Char) :
    Fills before tag.text [tag.node (Place.start.after before)] := by
  have hid : Fills before tag.beforeArgs
      (tag.id.toList.map (.leaf .tagId ((Place.start.after before).after tag.beforeId))) := by
    rw [← Place.after_append]
    have hword : Fills (before ++ tag.beforeId) (tag.id.getD [])
        (tag.id.toList.map (.leaf .tagId (Place.start.after (before ++ tag.beforeId)))) := by
      cases tag.id with
      | none => exact .gap _ []
      | some id => exact fills_leaf .tagId (by decide) _ id
    exact hword.gap_append
  have hargs : Fills (before ++ tag.beforeArgs) (tag.args.flatMap Argument.text)
      ((tag.literals (Place.start.after before)).map fun literal ↦
        .leaf .intLiteral literal.place literal.value) := by
    rw [Tag.literals, List.map_map, ← Place.after_append]
    refine fills_locate (fun argument _ before ↦ ?_) _
    dsimp only [Function.comp_apply]
    rw [← Place.after_append]
    exact (fills_leaf .intLiteral (by decide) _ argument.literal).gap_append
  exact .node .tag (((hid.append hargs).append_gap tag.tail).append_gap ['>'])
    fun hrule ↦ absurd hrule (by decide)

theorem fills_item (item : Item) (before : List Char) :
    Fills before item.text [item.node (Place.start.after before)] := by
  cases item with
  | run text => exact fills_leaf .text (by decide) before text
  | tag t => exact fills_tag t before

/-- The node of a text is made up of tags and runs, since its items are. -/
theorem interleaves_text {items : TaggedText} (hspelled : items.Spelled) (place : Place) :
    (items.node place).Interleaves := by
  have hrule : ∀ located : Located Item,
      ((located.value.node located.place).rule = .text) = located.value.outline.IsRun := by
    rintro ⟨place, item⟩
    cases item <;> simp [Item.node, leaf, Tag.node, Item.outline, Outline.Item.IsRun]
  refine ⟨?_, ?_, ?_, ?_⟩
  · have htext : ∀ located : Located Item,
        (located.value.node located.place).text = located.value.text := by
      rintro ⟨place, item⟩
      cases item <;> rfl
    change items.flatMap Item.text = ((locate Item.text place items).map _).flatMap Node.text
    rw [List.flatMap_def, List.flatMap_def, List.map_map]
    exact congrArg List.flatten (map_locate htext place items).symm
  · intro child hchild
    obtain ⟨⟨place, item⟩, -, rfl⟩ := List.mem_map.mp hchild
    cases item with
    | run text => exact Or.inr rfl
    | tag t => exact Or.inl rfl
  · have hruns := Outline.isChain_runs_iff.mp hspelled.2.runs
    have hmap : ((locate Item.text place items).map fun located ↦
        (located.value.node located.place).rule = .text) =
          items.map (Outline.Item.IsRun ∘ Item.outline) := map_locate hrule place items
    rw [TaggedText.outline, List.map_map, ← hmap, List.isChain_map] at hruns
    change ((locate Item.text place items).map _).IsChain _
    rw [List.isChain_map]
    exact hruns
  · intro child hchild hchildRule
    obtain ⟨⟨start, item⟩, hlocated, rfl⟩ := List.mem_map.mp hchild
    have hitem : item ∈ items := by
      rw [← map_value_locate Item.text place items]
      exact List.mem_map.mpr ⟨⟨start, item⟩, hlocated, rfl⟩
    cases item with
    | run text => exact (Spelling.mem_run.mp (spelled_of_mem hspelled hitem).2).1
    | tag t =>
      have hdiffer : Rule.tag ≠ .text := by decide
      exact absurd hchildRule hdiffer

theorem fills_text {items : TaggedText} (hspelled : items.Spelled) (before : List Char) :
    Fills before items.text [items.node (Place.start.after before)] :=
  .node .tagText (fills_locate (fun item _ ↦ fills_item item) before) fun _ ↦
    interleaves_text hspelled _

theorem fills_speaker {name : TaggedText} (hspelled : name.Spelled) (before : List Char) :
    Fills before (speakerText name) [speakerNode name (Place.start.after before)] := by
  have hname : Fills (before ++ ['[']) name.text
      [name.node (speakerTextPlace (Place.start.after before))] := by
    rw [speakerTextPlace, ← Place.after_append]
    exact fills_text hspelled _
  exact .node .speakerName (hname.gap_append.append_gap [']']) nofun

theorem fills_label (label : Label) (before : List Char) :
    Fills before label.text [label.node (Place.start.after before)] := by
  rw [Label.node, Label.identifierPlace, ← Place.after_append]
  exact (fills_leaf .identifier (by decide) _ _).gap_append

theorem fills_dialog {window : Dialog} (hspelled : (Window.dialog window).Spelled)
    (before : List Char) : Fills before window.text [window.node (Place.start.after before)] := by
  obtain ⟨hspaced, -, hname, hwell⟩ := hspelled
  have hlabel : Fills (before ++ window.beforeLabel) ((window.label.map Label.text).getD [])
      (window.label.toList.map (·.node ((Place.start.after before).after window.beforeLabel))) := by
    rw [← Place.after_append]
    exact fills_option fun label _ ↦ fills_label label _
  have hspeaker : Fills (before ++ window.beforeSpeaker)
      ((window.speaker.map speakerText).getD [])
      (window.speaker.toList.map
        (speakerNode · (window.speakerPlace (Place.start.after before)))) := by
    rw [Dialog.speakerPlace, ← Place.after_append]
    exact fills_option fun name hsome ↦
      fills_speaker ⟨hspaced.speaker name hsome, hname _ (Option.mem_map_of_mem _ hsome)⟩ _
  have hbody : Fills (before ++ window.header) window.body.text
      [window.body.node (window.bodyPlace (Place.start.after before))] := by
    rw [Dialog.bodyPlace, ← Place.after_append]
    exact fills_text ⟨hspaced.body, hwell⟩ _
  have hheader := (((hlabel.gap_append.append_gap window.gap).append hspeaker).append_gap
    window.tail).append_gap [']']
  exact .node .dialogWindow (hheader.append hbody) nofun

theorem fills_selection {window : Selection} (hspelled : (Window.selection window).Spelled)
    (before : List Char) : Fills before window.text [window.node (Place.start.after before)] := by
  obtain ⟨hspaced, -, hwell⟩ := hspelled
  have hlabel : Fills (before ++ window.beforeLabel) ((window.label.map Label.text).getD [])
      (window.label.toList.map (·.node ((Place.start.after before).after window.beforeLabel))) := by
    rw [← Place.after_append]
    exact fills_option fun label _ ↦ fills_label label _
  have hbody : Fills (before ++ window.header) window.body.text
      [window.body.node (window.bodyPlace (Place.start.after before))] := by
    rw [Selection.bodyPlace, ← Place.after_append]
    exact fills_text ⟨hspaced.body, hwell⟩ _
  have hheader := (hlabel.gap_append.append_gap window.tail).append_gap [']']
  exact .node .selectionWindow (hheader.append hbody) nofun

theorem fills_window {window : Window} (hspelled : window.Spelled) (before : List Char) :
    Fills before window.text [window.node (Place.start.after before)] := by
  cases window with
  | dialog w => exact .node .messageWindow (fills_dialog hspelled before) nofun
  | selection w => exact .node .messageWindow (fills_selection hspelled before) nofun

/-- The nodes of a tree of the grammar fill its text. -/
theorem fills_document {document : Document} (hspelled : document.Spelled) :
    Fills [] document.text [document.node] := by
  obtain ⟨-, hwindows⟩ := spelled_document_iff.mp hspelled
  have hnodes : Fills ([] ++ document.blanks) (document.windows.flatMap Window.text)
      ((locate Window.text document.windowsPlace document.windows).map
        fun window ↦ window.value.node window.place) :=
    fills_locate (fun window hwindow ↦ fills_window (hwindows window hwindow)) document.blanks
  have hend := hnodes.gap_append.append (fills_leaf .endOfInput (by decide) _ [])
  rw [List.append_nil] at hend
  exact .node .compilationUnit hend nofun

/-! ### Trees of sources -/

/-- The blanks of a tree of the grammar are the leading blanks of its text. -/
theorem takeWhile_text {document : Document} (hspelled : document.Spelled) :
    document.text.takeWhile isBlank = document.blanks := by
  have hstops : Stops isBlank (document.windows.flatMap Window.text ++ []) :=
    (endsText_windows document.windows endsText_nil).stops rfl rfl
  rw [List.append_nil] at hstops
  exact takeWhile_append_of_stops (Spelling.mem_blanks.mp hspelled.1.blanks) hstops

theorem flatMap_text_windows (document : Document) :
    (document.node.childrenOf .messageWindow).flatMap Node.text =
      document.windows.flatMap Window.text := by
  have htext : ∀ located : Located Window,
      (located.value.node located.place).text = located.value.text := fun _ ↦ rfl
  rw [childrenOf_messageWindow_document, List.flatMap_def, List.flatMap_def, List.map_map]
  exact congrArg List.flatten (map_locate htext document.windowsPlace document.windows)

/-- Assumes: a source is read. The text of the root of its tree is the source. The source is its
leading blanks and the texts of the windows. Every node of the tree stands in the source where it
says, and in the order of the source positions never go back. -/
theorem parse_spans {source : List Char} {document : Document}
    (hparse : parse source = .ok document) :
    document.node.text = source ∧
      source = source.takeWhile isBlank ++
        (document.node.childrenOf .messageWindow).flatMap Node.text ∧
      (∀ node ∈ document.node.preorder, node.Exact source) ∧
      document.node.preorder.Pairwise fun first second ↦
        first.place.position ≤ second.place.position := by
  obtain ⟨hspelled, rfl⟩ := spelled_of_parse hparse
  have hfills := fills_document hspelled
  have hroot : [document.node].flatMap preorder = document.node.preorder := by simp
  have hexact : ∀ node ∈ document.node.preorder, node.Exact document.text := by
    simpa [hroot] using hfills.exact []
  have horder := hfills.bounds_preorder.2
  rw [hroot] at horder
  refine ⟨rfl, ?_, hexact, horder.imp_of_mem fun {first second} hfirst hsecond hle ↦ ?_⟩
  · rw [takeWhile_text hspelled, flatMap_text_windows]
    rfl
  · rw [(hexact first hfirst).position, (hexact second hsecond).position, Position.scan_eq_after,
      Position.scan_eq_after]
    exact Position.after_take_le _ _ hle

/-- A blank in front, and a line ending of two characters in a run. -/
theorem parse_spans_run :
    parse " [sel a]x\r\ny<n>".toList = .ok ⟨[' '], [.selection ⟨[], ['s', 'e', 'l'],
        some ⟨[' '], ['a']⟩, [], [.run ['x', '\r', '\n', 'y'], .tag ⟨[], some ['n'], [], []⟩]⟩]⟩ ∧
      ∀ node ∈ Node.preorder (Document.node ⟨[' '], [.selection ⟨[], ['s', 'e', 'l'],
          some ⟨[' '], ['a']⟩, [], [.run ['x', '\r', '\n', 'y'],
            .tag ⟨[], some ['n'], [], []⟩]⟩]⟩),
        node.Exact " [sel a]x\r\ny<n>".toList := by
  have hparse : parse " [sel a]x\r\ny<n>".toList = .ok ⟨[' '], [.selection ⟨[], ['s', 'e', 'l'],
      some ⟨[' '], ['a']⟩, [], [.run ['x', '\r', '\n', 'y'], .tag ⟨[], some ['n'], [], []⟩]⟩]⟩ := by
    cbv
  exact ⟨hparse, (parse_spans hparse).2.2.1⟩

end DialogueScript.Syntax
