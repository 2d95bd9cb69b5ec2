import DialogueScript.Proofs.Syntax.Completeness
import DialogueScript.Proofs.Syntax.Decomposition

/-!
# Scripts are read in one way

The parser reads exactly the texts of the language of scripts, and every such text has one outline
(`parse_recognizes_script`). Ordered choice and greedy repetition lose nothing: the parser gives the
tree of a text whatever way the text was spelled, up to how touching stretches of spacing are
shared.

The nodes of a tree under their rules, without their places, are its `Skeleton`. The skeleton of a
parsed tree is that of its outline (`skeleton_node`), so that the tree has the nodes of the one
decomposition of its source and no others.
-/

set_option autoImplicit false
set_option relaxedAutoImplicit false

namespace DialogueScript.Syntax

/-! ### Skeletons -/

/-- The rules of a tree, with the characters of the parts that are words. -/
structure Skeleton where
  rule : Rule
  word : Option (List Char)
  parts : List Skeleton

/-- The rules whose parts are words: runs, identifiers, ids of tags and literals. -/
def Rule.isWord (rule : Rule) : Bool :=
  rule = .text || rule = .identifier || rule = .tagId || rule = .intLiteral

/-- A word. -/
def Skeleton.leaf (rule : Rule) (word : List Char) : Skeleton :=
  ⟨rule, some word, []⟩

/-- A construct of several parts. -/
def Skeleton.construct (rule : Rule) (parts : List Skeleton) : Skeleton :=
  ⟨rule, none, parts⟩

/-- The skeleton of a node. -/
def Node.skeleton : Node → Skeleton
  | ⟨rule, _, text, children⟩ =>
    ⟨rule, if rule.isWord then some text else none, children.map Node.skeleton⟩

namespace Outline

/-- The skeleton of a tag. -/
def Tag.skeleton (tag : Tag) : Skeleton :=
  .construct .tag
    (tag.id.toList.map (.leaf .tagId) ++ tag.literals.map (.leaf .intLiteral))

/-- The skeleton of a piece of a text. -/
def Item.skeleton : Item → Skeleton
  | .run text => .leaf .text text
  | .tag t => t.skeleton

/-- The skeleton of a text. -/
def Text.skeleton (items : Text) : Skeleton :=
  .construct .tagText (items.map Item.skeleton)

/-- The skeleton of a window. -/
def Window.skeleton : Window → Skeleton
  | .dialog identifier speaker body =>
    .construct .messageWindow [.construct .dialogWindow
      (identifier.toList.map (.leaf .identifier) ++
        speaker.toList.map (fun name ↦ .construct .speakerName [Text.skeleton name]) ++
        [Text.skeleton body])]
  | .selection identifier body =>
    .construct .messageWindow [.construct .selectionWindow
      (identifier.toList.map (.leaf .identifier) ++ [Text.skeleton body])]

/-- The skeleton of a script, which ends with the end of the source. -/
def skeleton (outline : Outline) : Skeleton :=
  .construct .compilationUnit
    (outline.map Window.skeleton ++ [.construct .endOfInput []])

end Outline

/-- Assumes: a function of located values that does not look at the place. Mapping it over the
located values of a list is mapping it over the values. -/
theorem map_locate {α β : Type} {text : α → List Char} {f : Located α → β} {g : α → β}
    (hfg : ∀ located : Located α, f located = g located.value) (place : Place)
    (values : List α) : (locate text place values).map f = values.map g := by
  calc (locate text place values).map f
      = ((locate text place values).map Located.value).map g := by
        rw [List.map_map]
        exact List.map_congr_left fun located _ ↦ hfg located
    _ = values.map g := by rw [map_value_locate]

@[simp] theorem skeleton_leaf (rule : Rule) (place : Place) (word : List Char)
    (hword : rule.isWord = true) : (Node.leaf rule place word).skeleton = .leaf rule word := by
  simp [Node.leaf, Node.skeleton, Skeleton.leaf, hword]

theorem skeleton_construct (rule : Rule) (place : Place) (text : List Char) (parts : List Node)
    (hword : rule.isWord = false) :
    (Node.mk rule place text parts).skeleton = .construct rule (parts.map Node.skeleton) := by
  simp [Node.skeleton, Skeleton.construct, hword]

theorem skeleton_tag (tag : Tag) (place : Place) :
    (tag.node place).skeleton = tag.outline.skeleton := by
  have hliterals : (tag.literals place).map (fun literal ↦
      (Node.leaf .intLiteral literal.place literal.value).skeleton) =
        tag.args.map fun argument ↦ Skeleton.leaf .intLiteral argument.literal := by
    rw [Tag.literals, List.map_map]
    refine map_locate (fun located ↦ ?_) _ _
    exact skeleton_leaf .intLiteral _ located.value.literal rfl
  have hid : tag.id.toList.map (fun id ↦
      (Node.leaf .tagId (place.after tag.beforeId) id).skeleton) =
        tag.id.toList.map (Skeleton.leaf .tagId) :=
    List.map_congr_left fun id _ ↦ skeleton_leaf .tagId _ id rfl
  rw [Tag.node, skeleton_construct _ _ _ _ rfl, Outline.Tag.skeleton, Tag.outline, List.map_append,
    List.map_map, List.map_map, List.map_map]
  exact congrArg (Skeleton.construct .tag) (congrArg₂ _ hid hliterals)

theorem skeleton_item (item : Item) (place : Place) :
    (item.node place).skeleton = item.outline.skeleton := by
  cases item with
  | run text => exact skeleton_leaf .text place text rfl
  | tag t => exact skeleton_tag t place

theorem skeleton_text (items : TaggedText) (place : Place) :
    (items.node place).skeleton = items.outline.skeleton := by
  rw [TaggedText.node, skeleton_construct _ _ _ _ rfl, Outline.Text.skeleton, TaggedText.outline,
    List.map_map, List.map_map]
  exact congrArg (Skeleton.construct .tagText)
    (map_locate (fun located ↦ skeleton_item located.value located.place) place items)

theorem skeleton_label (label : Option Label) (place : Place) :
    (label.toList.map (·.node place)).map Node.skeleton =
      (label.map Label.identifier).toList.map (Skeleton.leaf .identifier) := by
  cases label with
  | none => rfl
  | some label => exact congrArg (· :: []) (skeleton_leaf .identifier _ label.identifier rfl)

theorem skeleton_speaker (speaker : Option TaggedText) (place : Place) :
    (speaker.toList.map (speakerNode · place)).map Node.skeleton =
      (speaker.map TaggedText.outline).toList.map
        fun name ↦ Skeleton.construct .speakerName [Outline.Text.skeleton name] := by
  cases speaker with
  | none => rfl
  | some name =>
    have hname : (speakerNode name place).skeleton =
        .construct .speakerName [name.outline.skeleton] := by
      rw [speakerNode, skeleton_construct _ _ _ _ rfl, List.map_singleton, skeleton_text]
    exact congrArg (· :: []) hname

theorem skeleton_window (window : Window) (place : Place) :
    (window.node place).skeleton = window.outline.skeleton := by
  cases window with
  | dialog w =>
    rw [Window.node, skeleton_construct _ _ _ _ rfl, List.map_singleton, Dialog.node,
      skeleton_construct _ _ _ _ rfl, List.map_append, List.map_append, skeleton_label,
      skeleton_speaker, List.map_singleton, skeleton_text]
    rfl
  | selection w =>
    rw [Window.node, skeleton_construct _ _ _ _ rfl, List.map_singleton, Selection.node,
      skeleton_construct _ _ _ _ rfl, List.map_append, skeleton_label, List.map_singleton,
      skeleton_text]
    rfl

/-- The nodes of a tree are those of its outline. -/
theorem skeleton_node (document : Document) :
    document.node.skeleton = document.outline.skeleton := by
  have hwindows : ((locate Window.text document.windowsPlace document.windows).map
      fun window ↦ window.value.node window.place).map Node.skeleton =
        (document.windows.map Window.outline).map Outline.Window.skeleton := by
    rw [List.map_map, List.map_map]
    exact map_locate (fun located ↦ skeleton_window located.value located.place) _ _
  have hend : ([Node.leaf .endOfInput (Place.start.after document.text) []].map Node.skeleton) =
      [.construct .endOfInput []] := by
    rw [List.map_singleton, Node.leaf, skeleton_construct _ _ _ _ rfl, List.map_nil]
  rw [Document.node, skeleton_construct _ _ _ _ rfl, List.map_append, hwindows, hend]
  rfl

/-! ### The language and its trees -/

/-- A text is read exactly if it is a text of the language of scripts. The tree that is read is
spelled as its source; its outline is the one well-formed outline that the source spells, the tree
of any other way to share out the spacing settles to it, and its nodes are those of its outline. -/
theorem parse_recognizes_script (source : List Char) :
    ((∃ document, parse source = .ok document) ↔ source ∈ Spelling.script) ∧
      ∀ document, parse source = .ok document →
        document.text = source ∧
        (∀ outline : Outline,
          outline.WellFormed ∧ source ∈ outline.spellings ↔ outline = document.outline) ∧
        (∀ tree : Document, tree.Spelled ∧ tree.text = source → tree.settle = document) ∧
        document.node.skeleton = document.outline.skeleton := by
  have hsettle : ∀ document, parse source = .ok document →
      ∀ tree : Document, tree.Spelled ∧ tree.text = source → tree.settle = document := by
    rintro document hparse tree ⟨hspelled, rfl⟩
    rw [parse_text hspelled] at hparse
    exact Except.ok.inj hparse
  refine ⟨⟨?_, ?_⟩, fun document hparse ↦ ?_⟩
  · rintro ⟨document, hparse⟩
    obtain ⟨⟨hspaced, hwell⟩, htext⟩ := spelled_of_parse hparse
    exact mem_script_iff.mpr ⟨document.outline, hwell,
      mem_spellings_iff.mpr ⟨document, hspaced, rfl, htext⟩⟩
  · intro hsource
    obtain ⟨outline, hwell, hspelling⟩ := mem_script_iff.mp hsource
    obtain ⟨tree, hspaced, rfl, rfl⟩ := mem_spellings_iff.mp hspelling
    exact ⟨tree.settle, parse_text ⟨hspaced, hwell⟩⟩
  · obtain ⟨⟨hspaced, hwell⟩, htext⟩ := spelled_of_parse hparse
    refine ⟨htext, fun outline ↦ ⟨?_, ?_⟩, hsettle document hparse, skeleton_node document⟩
    · rintro ⟨houtline, hspelling⟩
      obtain ⟨tree, htree, rfl, hsource⟩ := mem_spellings_iff.mp hspelling
      rw [← hsettle document hparse tree ⟨⟨htree, houtline⟩, hsource⟩, outline_settle]
    · rintro rfl
      exact ⟨hwell, mem_spellings_iff.mpr ⟨document, hspaced, rfl, htext⟩⟩

end DialogueScript.Syntax
