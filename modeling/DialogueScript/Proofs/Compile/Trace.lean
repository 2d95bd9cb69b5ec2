import DialogueScript.Proofs.Diagnostics.Emission
import DialogueScript.Proofs.Syntax.Spans

/-!
# The trace of a compilation

A compilation reports every construct that it enters: the source, a window, a speaker name, a text
with tags, and a tag that calls a function. `Node.traced` lists the nodes of these constructs in the
order of the source and knows nothing of compiling.

`Step.Walks` compares a step that compiles a text, standing behind another one, with the nodes of
the text. The step enters the nodes in their order. If it stops, it has entered those up to the
defect and none behind it. Since the nodes and the defects of a text are inside of it, two steps
walk one text behind another (`Step.Walks.bind`), and so every construct is walked.

`trace_preorder` draws the conclusion for the events of a compiler: if a source compiles, they name
all the nodes, and otherwise those in front of the first complaint.
-/

set_option autoImplicit false
set_option relaxedAutoImplicit false

namespace DialogueScript

open Syntax

namespace Syntax.Node

/-! ### Nodes whose compilation is reported -/

/-- The compilation of the node is reported. Of the tags these are the calls. -/
def isTraced (node : Node) : Bool :=
  match node.rule with
  | .compilationUnit | .dialogWindow | .selectionWindow | .speakerName | .tagText => true
  | .tag => (node.child? .tagId).any fun id ↦ id.text = ['f'] || id.text = ['F']
  | _ => false

/-- The node and the nodes below it whose compilation is reported, in the order of the source. -/
def traced (node : Node) : List Node :=
  node.preorder.filter isTraced

/-- The report that a node is compiled. -/
def entry (node : Node) : Finding :=
  .entered node.rule node.place.position

theorem traced_eq (node : Node) :
    node.traced = (if node.isTraced then [node] else []) ++ node.children.flatMap traced := by
  have hchildren : (node.children.flatMap preorder).filter isTraced =
      node.children.flatMap traced := List.filter_flatMap
  rw [traced, preorder_eq, List.filter_cons, hchildren]
  split <;> rfl

theorem traced_of_isTraced {node : Node} (h : node.isTraced = true) :
    node.traced = node :: node.children.flatMap traced := by
  rw [traced_eq, if_pos h]
  rfl

theorem traced_of_not_isTraced {node : Node} (h : node.isTraced = false) :
    node.traced = node.children.flatMap traced := by
  rw [traced_eq, h]
  rfl

/-- Words are not traced. -/
theorem flatMap_traced_eq_nil {nodes : List Node}
    (h : ∀ node ∈ nodes, node.isTraced = false ∧ node.children = []) :
    nodes.flatMap traced = [] := by
  refine List.flatMap_eq_nil_iff.mpr fun node hnode ↦ ?_
  obtain ⟨hrule, hchildren⟩ := h node hnode
  rw [traced_of_not_isTraced hrule, hchildren, List.flatMap_nil]

end Syntax.Node

/-- The traced nodes of a tag are the tag if it is a call. -/
theorem traced_tag (tag : Tag) (place : Place) :
    (tag.node place).traced =
      if tag.id = some ['f'] ∨ tag.id = some ['F'] then [tag.node place] else [] := by
  have hwords : (tag.node place).children.flatMap Node.traced = [] := by
    refine Node.flatMap_traced_eq_nil fun node hnode ↦ ?_
    rcases List.mem_append.mp hnode with hid | hliteral
    · obtain ⟨word, -, rfl⟩ := List.mem_map.mp hid
      exact ⟨rfl, rfl⟩
    · obtain ⟨literal, -, rfl⟩ := List.mem_map.mp hliteral
      exact ⟨rfl, rfl⟩
  have hcall : (tag.node place).isTraced = true ↔ tag.id = some ['f'] ∨ tag.id = some ['F'] := by
    change ((tag.node place).child? .tagId).any _ = true ↔ _
    rw [child?_tagId_tag]
    cases tag.id <;> simp [Node.leaf]
  rw [Node.traced_eq, hwords, List.append_nil]
  simp only [hcall]

/-- The traced nodes below a text are those of its tags. -/
theorem traced_cons (item : Item) (rest : TaggedText) (place : Place) :
    (TaggedText.node (item :: rest) place).children.flatMap Node.traced =
      (item.node place).traced ++
        (TaggedText.node rest (place.after item.text)).children.flatMap Node.traced := rfl

theorem traced_text (items : TaggedText) (place : Place) :
    (items.node place).traced =
      items.node place :: (items.node place).children.flatMap Node.traced :=
  Node.traced_of_isTraced rfl

theorem traced_speaker (name : TaggedText) (place : Place) :
    (speakerNode name place).traced =
      speakerNode name place :: (name.node (speakerTextPlace place)).traced := by
  rw [Node.traced_of_isTraced rfl]
  exact congrArg _ (List.append_nil _)

theorem traced_label (label : Option Label) (place : Place) :
    (label.toList.map (·.node place)).flatMap Node.traced = [] := by
  refine Node.flatMap_traced_eq_nil fun node hnode ↦ ?_
  obtain ⟨word, -, rfl⟩ := List.mem_map.mp hnode
  exact ⟨rfl, rfl⟩

theorem traced_dialog (window : Dialog) (place : Place) :
    (window.node place).traced = window.node place ::
      ((window.speaker.toList.map
          (speakerNode · (window.speakerPlace place))).flatMap Node.traced ++
        (window.body.node (window.bodyPlace place)).traced) := by
  rw [Node.traced_of_isTraced rfl, Dialog.node]
  simp only [List.flatMap_append, traced_label, List.nil_append, List.flatMap_cons,
    List.flatMap_nil, List.append_nil]

theorem traced_selection (window : Selection) (place : Place) :
    (window.node place).traced =
      window.node place :: (window.body.node (window.bodyPlace place)).traced := by
  rw [Node.traced_of_isTraced rfl, Selection.node]
  simp only [List.flatMap_append, traced_label, List.nil_append, List.flatMap_cons,
    List.flatMap_nil, List.append_nil]

theorem traced_document (document : Document) :
    document.node.traced = document.node ::
      (locate Window.text document.windowsPlace document.windows).flatMap
        fun window ↦ (window.value.node window.place).traced := by
  have hend : [Node.leaf .endOfInput (Place.start.after document.text) []].flatMap Node.traced =
      [] := Node.flatMap_traced_eq_nil (by simp [Node.leaf, Node.isTraced])
  rw [Node.traced_of_isTraced rfl, Document.node]
  simp only [List.flatMap_append, List.flatMap_map, hend, List.append_nil]

/-! ### Steps that follow nodes -/

namespace Step

variable {α β γ : Type} {before text more : List Char} {nodes later : List Node}

/-- The findings that a construct is entered. -/
def entries (findings : List Finding) : List Finding :=
  findings.filter (·.level = .info)

theorem entries_append (first second : List Finding) :
    entries (first ++ second) = entries first ++ entries second :=
  List.filter_append first second

/-- A finding of two steps is one of the first, or one of the second after some value. -/
theorem mem_findings_bind {first : Step α} {next : α → Step β} {finding : Finding}
    (h : finding ∈ (first >>= next).findings) :
    finding ∈ first.findings ∨ ∃ a, finding ∈ (next a).findings := by
  cases hvalue : first.value with
  | none =>
    change finding ∈ (Step.bind first next).findings at h
    rw [Step.bind, hvalue] at h
    exact Or.inl h
  | some a =>
    rw [bind_of_value hvalue] at h
    exact (List.mem_append.mp h).imp_right fun hmem ↦ ⟨a, hmem⟩

/-- A step enters nodes in their order. If it stops at a defect, it has entered those up to the
defect, and all others are behind it. -/
inductive Follows : Step α → List Node → Prop
  /-- All nodes are entered. -/
  | done {findings : List Finding} {value : α} {nodes : List Node}
      (hentries : entries findings = nodes.map Node.entry) : Follows ⟨findings, some value⟩ nodes
  /-- The nodes are entered up to a defect. -/
  | stopped {before : List Finding} {defect : Defect} {position : Position}
      {begun behind : List Node} (hentries : entries before = begun.map Node.entry)
      (hbegun : ∀ node ∈ begun, node.place.position ≤ position)
      (hbehind : ∀ node ∈ behind, position < node.place.position) :
      Follows ⟨before ++ [.defect defect position], none⟩ (begun ++ behind)

/-- Assumes: the defects of the second of two steps are not in front of the nodes of the first, and
those of the first are in front of the nodes of the second. The steps follow the nodes of both. -/
theorem Follows.bind {first : Step α} {next : α → Step β} (hfirst : first.Follows nodes)
    (hnext : ∀ a, (next a).Follows later)
    (hnodes : ∀ node ∈ nodes, ∀ a defect position,
      .defect defect position ∈ (next a).findings → node.place.position ≤ position)
    (hlater : ∀ node ∈ later, ∀ defect position,
      .defect defect position ∈ first.findings → position < node.place.position) :
    (first >>= next).Follows (nodes ++ later) := by
  cases hfirst with
  | @stopped before defect position begun behind hentries hbegun hbehind =>
    rw [List.append_assoc]
    refine .stopped hentries hbegun (List.forall_mem_append.mpr ⟨hbehind, fun node hnode ↦ ?_⟩)
    exact hlater node hnode defect position (by simp)
  | @done findings value _ hentries =>
    change (⟨findings ++ (next value).findings, (next value).value⟩ : Step β).Follows _
    have hsecond := hnext value
    have hdefects := fun node hnode ↦ hnodes node hnode value
    generalize next value = second at hsecond hdefects
    cases hsecond with
    | done hmore => exact .done (by rw [entries_append, hentries, hmore, List.map_append])
    | @stopped before defect position begun behind hmore hbegun hbehind =>
      dsimp only
      rw [← List.append_assoc, ← List.append_assoc]
      refine .stopped (by rw [entries_append, hentries, hmore, List.map_append]) ?_ hbehind
      refine List.forall_mem_append.mpr ⟨fun node hnode ↦ ?_, hbegun⟩
      exact hdefects node hnode defect position (by simp)

/-- A step compiles a text behind another one and follows its nodes. These are inside the text and
in order, and so is every defect, which is in front of what stands behind the text. -/
structure Walks (before text : List Char) (step : Step α) (nodes : List Node) : Prop where
  follows : step.Follows nodes
  inside : ∀ node ∈ nodes, Position.start.after before ≤ node.place.position ∧
    node.place.position ≤ Position.start.after (before ++ text)
  ascending : nodes.Pairwise fun first second ↦ first.place.position ≤ second.place.position
  defects : ∀ defect position, .defect defect position ∈ step.findings →
    Position.start.after before ≤ position ∧ position < Position.start.after (before ++ text)

namespace Walks

theorem pure (a : α) (before text : List Char) : (Pure.pure a : Step α).Walks before text [] :=
  ⟨.done rfl, List.forall_mem_nil _, .nil, fun _ _ h ↦ absurd h List.not_mem_nil⟩

/-- Assumes: a position is inside a text. A defect there may be found while the text is walked. -/
theorem fail_at (defect : Defect) {position : Position}
    (hle : Position.start.after before ≤ position)
    (hlt : position < Position.start.after (before ++ text)) :
    (fail defect position : Step α).Walks before text [] := by
  have hstopped : Follows (⟨[] ++ [.defect defect position], none⟩ : Step α) ([] ++ []) :=
    .stopped rfl (List.forall_mem_nil _) (List.forall_mem_nil _)
  refine ⟨hstopped, List.forall_mem_nil _, .nil, fun d p h ↦ ?_⟩
  obtain ⟨-, rfl⟩ := Finding.defect.inj (List.mem_singleton.mp h)
  exact ⟨hle, hlt⟩

/-- Assumes: a text is not empty. A defect at its beginning is inside of it. -/
theorem fail (defect : Defect) (before : List Char) (hne : text ≠ []) :
    (Step.fail defect (Position.start.after before) : Step α).Walks before text [] := by
  refine fail_at defect (Position.le_refl _) ?_
  rw [Position.after_append]
  exact Position.lt_after _ hne

theorem map {step : Step α} (f : α → β) (h : step.Walks before text nodes) :
    (f <$> step).Walks before text nodes := by
  refine ⟨?_, h.inside, h.ascending, h.defects⟩
  cases h.follows with
  | done hentries => exact .done hentries
  | stopped hentries hbegun hbehind => exact .stopped hentries hbegun hbehind

/-- A walk through a text goes through the text with more characters behind it. -/
theorem append_gap {step : Step α} (h : step.Walks before text nodes) (gap : List Char) :
    step.Walks before (text ++ gap) nodes := by
  have hle : Position.start.after (before ++ text) ≤
      Position.start.after (before ++ (text ++ gap)) := by
    rw [← List.append_assoc, Position.after_append _ (before ++ text)]
    exact Position.le_after _ gap
  refine ⟨h.follows, fun node hnode ↦ ?_, h.ascending, fun defect position hdefect ↦ ?_⟩
  · exact ⟨(h.inside node hnode).1, Position.le_trans (h.inside node hnode).2 hle⟩
  · have hbounds := h.defects defect position hdefect
    exact ⟨hbounds.1, Position.lt_of_lt_of_le hbounds.2 hle⟩

/-- A walk through a text goes through the text with more characters in front of it. -/
theorem gap_append {step : Step α} {gap : List Char} (h : step.Walks (before ++ gap) text nodes) :
    step.Walks before (gap ++ text) nodes := by
  have hle : Position.start.after before ≤ Position.start.after (before ++ gap) := by
    rw [Position.after_append]
    exact Position.le_after _ gap
  obtain ⟨hfollows, hinside, hascending, hdefects⟩ := h
  rw [List.append_assoc] at hinside hdefects
  refine ⟨hfollows, fun node hnode ↦ ?_, hascending, fun defect position hdefect ↦ ?_⟩
  · exact (hinside node hnode).imp_left (Position.le_trans hle)
  · exact (hdefects defect position hdefect).imp_left (Position.le_trans hle)

/-- Two steps walk one text behind another. The first may stop, and the nodes of the second are
behind its defect all the same, for which some value of the first has to be thought of. -/
theorem bind [Nonempty α] {first : Step α} {next : α → Step β}
    (hfirst : first.Walks before text nodes)
    (hnext : ∀ a, (next a).Walks (before ++ text) more later) :
    (first >>= next).Walks before (text ++ more) (nodes ++ later) := by
  have hmiddle : ∀ node ∈ nodes, ∀ position, Position.start.after (before ++ text) ≤ position →
      node.place.position ≤ position :=
    fun node hnode position ↦ Position.le_trans (hfirst.inside node hnode).2
  have hfollows : (first >>= next).Follows (nodes ++ later) := by
    refine hfirst.follows.bind (fun a ↦ (hnext a).follows) ?_ ?_
    · intro node hnode a defect position hdefect
      exact hmiddle node hnode position ((hnext a).defects defect position hdefect).1
    · intro node hnode defect position hdefect
      have hlater := (hnext (Classical.arbitrary α)).inside node hnode
      exact Position.lt_of_lt_of_le (hfirst.defects defect position hdefect).2 hlater.1
  have hlater := hnext (Classical.arbitrary α)
  have hwider := hfirst.append_gap more
  have hbehind := fun a ↦ (hnext a).gap_append
  refine ⟨hfollows, ?_, ?_, fun defect position hdefect ↦ ?_⟩
  · exact List.forall_mem_append.mpr ⟨hwider.inside, (hbehind (Classical.arbitrary α)).inside⟩
  · refine List.pairwise_append.mpr ⟨hfirst.ascending, hlater.ascending, ?_⟩
    intro node hnode other hother
    exact hmiddle node hnode _ (hlater.inside other hother).1
  · rcases mem_findings_bind hdefect with hmem | ⟨a, hmem⟩
    · exact hwider.defects defect position hmem
    · exact (hbehind a).defects defect position hmem

/-- A walk goes as far if a value is made of its result. -/
theorem bind_pure [Nonempty α] {step : Step α} (h : step.Walks before text nodes) (f : α → β) :
    (step >>= fun a ↦ Pure.pure (f a)).Walks before text nodes := by
  have hwalks := h.bind fun a ↦ pure (f a) (before ++ text) []
  rwa [List.append_nil, List.append_nil] at hwalks

/-- Two steps in one text that enter nothing may find their defects in any order. -/
theorem bind_silent {first : Step α} {next : α → Step β} (hfirst : first.Walks before text [])
    (hnext : ∀ a, (next a).Walks before text []) : (first >>= next).Walks before text [] := by
  have hfollows : (first >>= next).Follows ([] ++ []) :=
    hfirst.follows.bind (fun a ↦ (hnext a).follows) (List.forall_mem_nil _) (List.forall_mem_nil _)
  refine ⟨hfollows, List.forall_mem_nil _, .nil, fun defect position hdefect ↦ ?_⟩
  rcases mem_findings_bind hdefect with hmem | ⟨a, hmem⟩
  · exact hfirst.defects defect position hmem
  · exact (hnext a).defects defect position hmem

theorem forEach_silent {step : α → Step β} {inputs : List α}
    (h : ∀ input ∈ inputs, (step input).Walks before text []) :
    (Step.forEach step inputs).Walks before text [] := by
  induction inputs with
  | nil => exact pure [] before text
  | cons input rest ih =>
    have hrest := ih fun other hother ↦ h other (List.mem_cons_of_mem input hother)
    exact (h input List.mem_cons_self).bind_silent fun output ↦ hrest.map (output :: ·)

/-- Assumes: a node stands at the beginning of a text. To enter it and then walk the text is to walk
the text with the node in front. -/
theorem enter {next : Unit → Step β} (node : Node) (hplace : node.place = Place.start.after before)
    (hnext : (next ()).Walks before text nodes) :
    (report node.entry >>= next).Walks before text (node :: nodes) := by
  have hposition : node.place.position = Position.start.after before :=
    congrArg Place.position hplace
  have hentered : (report node.entry).Walks before [] [node] := by
    refine ⟨.done rfl, ?_, List.pairwise_singleton _ _, fun defect position hdefect ↦ ?_⟩
    · intro other hother
      obtain rfl := List.mem_singleton.mp hother
      rw [hposition, List.append_nil]
      exact ⟨Position.le_refl _, Position.le_refl _⟩
    · exact Finding.noConfusion (List.mem_singleton.mp hdefect)
  refine hentered.bind fun _ ↦ ?_
  rwa [List.append_nil]

/-- Assumes: a finding is a warning. To report it under a condition is no part of the walk. -/
theorem warn {condition : Bool} {finding : Finding} {next : Unit → Step β}
    (hlevel : finding.level = .warning) (hnext : (next ()).Walks before text nodes) :
    (reportIf condition finding >>= next).Walks before text nodes := by
  have hwarned : (reportIf condition finding).Walks before [] [] := by
    refine ⟨.done ?_, List.forall_mem_nil _, .nil, fun defect position hdefect ↦ ?_⟩
    · cases condition <;> simp [entries, hlevel]
    · cases condition with
      | false => exact absurd hdefect List.not_mem_nil
      | true =>
        rw [← List.mem_singleton.mp hdefect] at hlevel
        exact Level.noConfusion hlevel
  refine hwarned.bind fun _ ↦ ?_
  rwa [List.append_nil]

/-- Assumes: the step of each element of a list walks its text, wherever it stands. The steps of
the list walk the texts one behind another. -/
theorem forEach [Nonempty β] {textOf : α → List Char} {step : Located α → Step β}
    {nodesOf : Located α → List Node} {values : List α}
    (h : ∀ value ∈ values, ∀ before, (step ⟨Place.start.after before, value⟩).Walks before
      (textOf value) (nodesOf ⟨Place.start.after before, value⟩)) (before : List Char) :
    (Step.forEach step (locate textOf (Place.start.after before) values)).Walks before
      (values.flatMap textOf)
      ((locate textOf (Place.start.after before) values).flatMap nodesOf) := by
  induction values generalizing before with
  | nil => exact pure [] before []
  | cons value rest ih =>
    have hrest := ih (fun other hother ↦ h other (List.mem_cons_of_mem value hother))
      (before ++ textOf value)
    rw [Place.after_append] at hrest
    exact (h value List.mem_cons_self before).bind fun output ↦ hrest.map (output :: ·)

end Walks

end Step

/-! ### The walk of each construct -/

open Step

/-- A literal of a tag stands inside the tag. -/
theorem inside_literals {tag : Tag} {before : List Char} {literal : Located (List Char)}
    (h : literal ∈ tag.literals (Place.start.after before)) :
    Position.start.after before ≤ literal.place.position ∧
      literal.place.position < Position.start.after (before ++ tag.text) := by
  obtain ⟨argument, hargument, rfl⟩ := List.mem_map.mp h
  obtain ⟨front, behind, hargs, hplace⟩ := exists_of_mem_locate hargument
  generalize argument.value = value at *
  have htext : tag.text = (tag.beforeArgs ++ front.flatMap Argument.text ++ value.gap) ++
      (value.literal ++ behind.flatMap Argument.text ++ tag.tail ++ ['>']) := by
    simp [Tag.text, hargs, Argument.text]
  have hposition : (argument.place.after value.gap).position =
      (Position.start.after before).after
        (tag.beforeArgs ++ front.flatMap Argument.text ++ value.gap) := by
    rw [hplace, ← Place.after_append, ← Place.after_append, Place.position_after,
      Place.position_after, List.append_assoc]
    rfl
  dsimp only
  rw [hposition, Position.after_append _ before, htext, Position.after_append _ (_ ++ _ ++ _)]
  refine ⟨Position.le_after _ _, Position.lt_after _ ?_⟩
  simp

theorem walks_literalValue {literal : Located (List Char)} {before text : List Char}
    (hinside : Position.start.after before ≤ literal.place.position ∧
      literal.place.position < Position.start.after (before ++ text)) :
    (literalValue literal).Walks before text [] := by
  unfold literalValue
  cases Literal.value literal.value with
  | ok n => exact Walks.pure n before text
  | error error => exact Walks.fail_at (.malformedLiteral error) hinside.1 hinside.2

theorem tag_text_ne_nil (tag : Tag) : tag.text ≠ [] := by
  simp [Tag.text]

/-- A call enters nothing on its own. It may find its defects in any order, since a missing index
is reported at the tag, when the table has been read. -/
theorem walks_call (tag : Tag) (before : List Char) :
    (tag.call (Place.start.after before)).Walks before tag.text [] := by
  have hliterals : ∀ literal ∈ tag.literals (Place.start.after before),
      (literalValue literal).Walks before tag.text [] :=
    fun literal hliteral ↦ walks_literalValue (inside_literals hliteral)
  unfold Tag.call
  generalize tag.literals (Place.start.after before) = literals at hliterals
  match literals with
  | [] => exact Walks.fail .callWithoutArguments before (tag_text_ne_nil tag)
  | [table] =>
    exact (hliterals table (by simp)).bind_silent fun _ ↦
      Walks.fail .callWithoutIndex before (tag_text_ne_nil tag)
  | table :: index :: arguments =>
    refine (hliterals table (by simp)).bind_silent fun _ ↦ ?_
    refine (hliterals index (by simp)).bind_silent fun _ ↦ ?_
    refine (Walks.forEach_silent fun argument hargument ↦ ?_).bind_silent fun _ ↦
      Walks.pure _ before tag.text
    exact hliterals argument (by simp [hargument])

theorem walks_token (tag : Tag) (before : List Char) :
    (tag.token (Place.start.after before)).Walks before tag.text
      (tag.node (Place.start.after before)).traced := by
  rw [traced_tag]
  unfold Tag.token
  cases hid : tag.id with
  | none => exact Walks.fail .tagWithoutId before (tag_text_ne_nil tag)
  | some id =>
    have hcall : some id = some ['f'] ∨ some id = some ['F'] ↔ Control.ofId? id = some .call := by
      rw [Option.some_inj, Option.some_inj]
      exact (@Control.ofId?_eq_some_iff id .call).symm
    simp only [hcall]
    cases Control.ofId? id with
    | none => exact Walks.fail (.unknownTag id) before (tag_text_ne_nil tag)
    | some control =>
      cases control with
      | call =>
        refine Walks.enter (tag.node (Place.start.after before)) rfl ?_
        exact (walks_call tag before).map some
      | newLine => exact Walks.pure (some Token.newLine) before tag.text
      | endLine => exact Walks.pure none before tag.text

theorem text_cons (item : Item) (rest : TaggedText) :
    TaggedText.text (item :: rest) = item.text ++ TaggedText.text rest := rfl

/-- The tags of a text are entered in order. -/
theorem walks_linesFrom (items : TaggedText) (before : List Char) (begun : List Token) :
    (items.linesFrom (Place.start.after before) begun).Walks before items.text
      ((items.node (Place.start.after before)).children.flatMap Node.traced) := by
  induction items generalizing before begun with
  | nil => exact Walks.pure _ before []
  | cons item rest ih =>
    rw [traced_cons, text_cons]
    have hrest := ih (before ++ item.text)
    rw [Place.after_append] at hrest
    cases item with
    | run run =>
      have hrun : ((Item.run run).node (Place.start.after before)).traced = [] :=
        Node.traced_of_not_isTraced rfl
      rw [hrun, List.nil_append]
      exact (hrest (begun ++ runTokens run)).gap_append
    | tag tag =>
      refine (walks_token tag before).bind fun mark ↦ ?_
      cases mark with
      | some token => exact hrest (begun ++ [token])
      | none =>
        refine Walks.warn rfl ?_
        exact (hrest []).map (⟨begun⟩ :: ·)

theorem walks_lines (items : TaggedText) (before : List Char) :
    (items.lines (Place.start.after before)).Walks before items.text
      (items.node (Place.start.after before)).traced := by
  rw [traced_text]
  refine Walks.enter (items.node (Place.start.after before)) rfl ?_
  exact walks_linesFrom items before []

theorem walks_requiredName (label : Option Label) (defect : Defect) (before text : List Char)
    (hne : text ≠ []) :
    (requiredName label defect (Position.start.after before)).Walks before text [] := by
  cases label with
  | none => exact Walks.fail defect before hne
  | some label => exact Walks.pure (String.ofList label.identifier) before text

/-- A speaker name is entered, and then the text in its brackets. -/
theorem walks_speaker (name : TaggedText) (before : List Char) :
    (speakerOf name (Place.start.after before)).Walks before (speakerText name)
      (speakerNode name (Place.start.after before)).traced := by
  have htext : speakerText name = ['['] ++ (name.text ++ [']']) := rfl
  have hname := walks_lines name (before ++ ['['])
  rw [Place.after_append, ← speakerTextPlace] at hname
  rw [traced_speaker, htext, ← List.append_nil (name.node (speakerTextPlace _)).traced]
  refine Walks.enter (speakerNode name (Place.start.after before)) rfl (Walks.gap_append ?_)
  refine hname.bind fun lines ↦ Walks.warn rfl ?_
  exact Walks.pure (lines.head?.map Speaker.named) _ [']']

theorem walks_optionalSpeaker (speaker : Option TaggedText) (before : List Char) :
    (optionalSpeaker speaker (Place.start.after before)).Walks before
      ((speaker.map speakerText).getD [])
      ((speaker.toList.map (speakerNode · (Place.start.after before))).flatMap Node.traced) := by
  cases speaker with
  | none => exact Walks.pure none before []
  | some name =>
    change Walks before (speakerText name) _
      ((speakerNode name (Place.start.after before)).traced ++ [])
    rw [List.append_nil]
    exact walks_speaker name before

/-- A dialog window is entered before its identifier is looked for, and its speaker before its
body. -/
theorem walks_dialog (window : Dialog) (before : List Char) :
    (window.compile (Place.start.after before)).Walks before window.text
      (window.node (Place.start.after before)).traced := by
  have hregion : before ++ window.header = before ++ window.beforeSpeaker ++
      ((window.speaker.map speakerText).getD [] ++ (window.tail ++ [']'])) := by
    simp [Dialog.header]
  have htext : window.text = window.beforeSpeaker ++
      ((window.speaker.map speakerText).getD [] ++ (window.tail ++ [']']) ++
        window.body.text) := by
    simp [Dialog.text, Dialog.header]
  have hname := walks_requiredName window.label .dialogWithoutName before
    window.beforeSpeaker (by simp [Dialog.beforeSpeaker, Dialog.beforeLabel])
  have hspeaker := walks_optionalSpeaker window.speaker (before ++ window.beforeSpeaker)
  have hbody := walks_lines window.body (before ++ window.header)
  rw [Place.after_append] at hspeaker hbody
  rw [hregion] at hbody
  rw [traced_dialog, htext]
  refine Walks.enter (window.node (Place.start.after before)) rfl ?_
  exact hname.bind fun identifier ↦ (hspeaker.append_gap (window.tail ++ [']'])).bind
    fun who ↦ hbody.bind_pure (DialogWindow.mk identifier who)

/-- A selection window is entered before its identifier is looked for. -/
theorem walks_selection (window : Selection) (before : List Char) :
    (window.compile (Place.start.after before)).Walks before window.text
      (window.node (Place.start.after before)).traced := by
  have hname := walks_requiredName window.label .selectionWithoutName before
    window.header (by simp [Selection.header])
  have hbody := walks_lines window.body (before ++ window.header)
  rw [Place.after_append] at hbody
  rw [traced_selection]
  refine Walks.enter (window.node (Place.start.after before)) rfl ?_
  exact hname.bind fun identifier ↦ hbody.bind_pure (SelectionWindow.mk identifier)

instance : Nonempty DialogueScript.Window :=
  ⟨.selection ⟨"", []⟩⟩

theorem walks_compileWindow (window : Syntax.Window) (before : List Char) :
    (compileWindow ⟨Place.start.after before, window⟩).Walks before window.text
      (window.node (Place.start.after before)).traced := by
  have hinner : ∀ node : Node, (Node.mk .messageWindow (Place.start.after before) window.text
      [node]).traced = node.traced := by
    intro node
    rw [Node.traced_of_not_isTraced rfl]
    exact List.append_nil _
  cases window with
  | dialog w =>
    rw [Window.node, hinner]
    exact (walks_dialog w before).map _
  | selection w =>
    rw [Window.node, hinner]
    exact (walks_selection w before).map _

/-- The windows of a document are entered in order. A document without windows has a defect at its
beginning, where it is entered. -/
theorem follows_script (document : Document) (version : FormatVersion) :
    (document.script version).Follows document.node.traced ∧
      document.node.traced.Pairwise fun first second ↦
        first.place.position ≤ second.place.position := by
  rw [traced_document]
  unfold Document.script
  cases document.windows with
  | nil =>
    have hstopped : Follows
        (⟨[document.node.entry] ++ [.defect .noWindows Position.start], none⟩ : Step Script)
        ([document.node] ++ []) :=
      .stopped rfl (List.forall_mem_singleton.mpr (Position.le_refl _)) (List.forall_mem_nil _)
    exact ⟨hstopped, List.pairwise_singleton _ _⟩
  | cons window rest =>
    have hwindows : (forEach compileWindow
        (locate Window.text document.windowsPlace (window :: rest))).Walks ([] ++ document.blanks)
          ((window :: rest).flatMap Window.text)
          ((locate Window.text document.windowsPlace (window :: rest)).flatMap
            fun window ↦ (window.value.node window.place).traced) :=
      Walks.forEach (fun window _ ↦ walks_compileWindow window) document.blanks
    suffices hwalks : (report document.node.entry >>= fun _ ↦ Script.mk version <$>
        forEach compileWindow (locate Window.text document.windowsPlace (window :: rest))).Walks []
          (document.blanks ++ (window :: rest).flatMap Window.text)
          (document.node :: (locate Window.text document.windowsPlace (window :: rest)).flatMap
            fun window ↦ (window.value.node window.place).traced) from
      ⟨hwalks.follows, hwalks.ascending⟩
    exact Walks.enter document.node rfl (hwindows.gap_append.map (Script.mk version))

/-! ### Sources -/

/-- A source is read as a tree, whatever its form is. -/
inductive Source.Parses : Source → Document → Prop
  | text {text : List Char} {document : Document}
      (hparse : parse (Utf8.dropMark text) = .ok document) : Parses (.text text) document
  | bytes {bytes : List UInt8} {text : List Char} {document : Document}
      (hdecode : Utf8.decode (Utf8.dropMarkBytes bytes) = ⟨text, none⟩)
      (htext : Parses (.text text) document) : Parses (.bytes bytes) document
  | reader {reads : List Read} {bytes : List UInt8} {document : Document}
      (hread : readToEnd reads = .ok bytes) (hbytes : Parses (.bytes bytes) document) :
      Parses (.reader reads) document

/-- A source that is read is as good as a text that is read as the same tree. -/
theorem Source.Parses.exists_text {source : Source} {document : Document}
    (h : source.Parses document) :
    ∃ text, parse (Utf8.dropMark text) = .ok document ∧ ∀ version,
      tryCompile version source = compileText version text ∧
        compile version source = (compileText version text).conclude := by
  induction h with
  | @text text document hparse => exact ⟨text, hparse, fun version ↦ ⟨rfl, rfl⟩⟩
  | bytes hdecode _ ih => simpa only [tryCompile, compile, compileBytes, hdecode] using ih
  | reader hread _ ih => simpa only [tryCompile, compile, hread] using ih

/-- The event that tells of the compilation of a node. -/
def Syntax.Node.traceEvent (channel : String) (node : Node) : Event :=
  ⟨channel, .info, "Compiling " ++ node.rule.name ++ " (" ++ toString node.place.position ++ ")",
    some node.place.position⟩

/-- The events of a level. -/
def eventsAt (level : Level) (events : List Event) : List Event :=
  events.filter (·.level = level)

/-- The events of a compilation trace the tree of its source in preorder. -/
structure TracesPreorder (channel : String) (document : Document) (script : Option Script)
    (events : List Event) : Prop where
  /-- With a script, every traced node has its event, in the order of the source. -/
  complete : script.isSome → eventsAt .info events = document.node.traced.map (·.traceEvent channel)
  /-- Without a script, there is one error, which is the first complaint. Of the traced nodes a
  part at the beginning has its events. These are the nodes up to the complaint: all others are
  behind it. -/
  stopped : script = none → ∃ first ∈ document.node.complaints.head?,
    eventsAt .error events = [⟨channel, .error, first.message, some first.position⟩] ∧
      ∃ begun behind, document.node.traced = begun ++ behind ∧
        eventsAt .info events = begun.map (·.traceEvent channel) ∧
        (∀ node ∈ begun, node.place.position ≤ first.position) ∧
        ∀ node ∈ behind, first.position < node.place.position
  /-- The positions of the trace never go back. -/
  ascending : (eventsAt .info events).Pairwise fun first second ↦
    ∀ p ∈ first.position, ∀ q ∈ second.position, p ≤ q

/-- The events of a level come from the findings of the level. -/
theorem eventsAt_map (level : Level) (channel : String) (findings : List Finding) :
    eventsAt level (findings.map (·.toEvent channel)) =
      (findings.filter (·.level = level)).map (·.toEvent channel) :=
  List.filter_map

theorem map_entry_toEvent (channel : String) (nodes : List Node) :
    (nodes.map Node.entry).map (·.toEvent channel) = nodes.map (·.traceEvent channel) := by
  rw [List.map_map]
  rfl

/-- The events of nodes are in order if the nodes are. -/
theorem pairwise_traceEvent {nodes : List Node} (channel : String)
    (h : nodes.Pairwise fun first second ↦ first.place.position ≤ second.place.position) :
    (nodes.map (·.traceEvent channel)).Pairwise fun first second ↦
      ∀ p ∈ first.position, ∀ q ∈ second.position, p ≤ q := by
  refine List.pairwise_map.mpr (h.imp fun {first second} hle p hp q hq ↦ ?_)
  obtain rfl := Option.some.inj hp
  obtain rfl := Option.some.inj hq
  exact hle

/-- Assumes: a step stops at a defect. The defect is the first complaint about it. -/
theorem Step.Reports.head?_of_stopped {α : Type} {before : List Finding} {defect : Defect}
    {position : Position} {complaints : List Complaint}
    (h : (⟨before ++ [.defect defect position], none⟩ : Step α).Reports complaints) :
    (∀ finding ∈ before, finding.IsPassing) ∧
      complaints.head? = some ⟨defect.message, position⟩ := by
  generalize hstep : (⟨before ++ [.defect defect position], none⟩ : Step α) = step at h
  cases h with
  | done => exact absurd (Step.mk.inj hstep).2 (by simp)
  | stopped hpassing =>
    obtain ⟨hbefore, hdefect⟩ := List.append_inj' (Step.mk.inj hstep).1 rfl
    obtain ⟨rfl, rfl⟩ := Finding.defect.inj (List.singleton_inj.mp hdefect)
    subst hbefore
    exact ⟨hpassing, rfl⟩

/-- Assumes: a text is read. The events of its compilation trace its tree in preorder. -/
theorem tracesPreorder_compileText (version : FormatVersion) (channel : String) {text : List Char}
    {document : Document} (hparse : parse (Utf8.dropMark text) = .ok document) :
    TracesPreorder channel document (compileText version text).value
      ((compileText version text).findings.map (·.toEvent channel)) := by
  have hreports := reports_script document version
  obtain ⟨hfollows, hascending⟩ := follows_script document version
  simp only [compileText, hparse]
  generalize document.script version = step at hreports hfollows
  generalize htraced : document.node.traced = traced at hfollows hascending
  cases hfollows with
  | @done findings _ _ hentries =>
    have hinfo : eventsAt .info (findings.map (·.toEvent channel)) =
        traced.map (·.traceEvent channel) := by
      rw [eventsAt_map, ← entries, hentries, map_entry_toEvent]
    refine ⟨fun _ ↦ by rw [hinfo, htraced], fun hnone ↦ absurd hnone (by simp), ?_⟩
    rw [hinfo]
    exact pairwise_traceEvent channel hascending
  | @stopped before defect position begun behind hentries hbegun hbehind =>
    obtain ⟨hpassing, hfirst⟩ := hreports.head?_of_stopped
    have hinfo : eventsAt .info ((giveUp (before ++ [.defect defect position])
        (some Position.start)).findings.map (·.toEvent channel)) =
          begun.map (·.traceEvent channel) := by
      have hlast : entries [.defect defect position, .gaveUp (some Position.start)] = [] := rfl
      rw [eventsAt_map, ← entries, giveUp, List.append_assoc, entries_append, hentries]
      rw [List.singleton_append, hlast, List.append_nil, map_entry_toEvent]
    have herror : eventsAt .error ((giveUp (before ++ [.defect defect position])
        (some Position.start)).findings.map (·.toEvent channel)) =
          [⟨channel, .error, defect.message, some position⟩] := by
      simp only [giveUp, eventsAt, List.map_append, List.filter_append,
        filter_error_eq_nil hpassing]
      rfl
    refine ⟨fun hsome ↦ absurd hsome (by simp [giveUp]), fun _ ↦ ?_, ?_⟩
    · exact ⟨⟨defect.message, position⟩, hfirst, herror, begun, behind, htraced, hinfo, hbegun,
        hbehind⟩
    · rw [hinfo]
      exact pairwise_traceEvent channel (List.pairwise_append.mp hascending).1

/-- Assumes: a source is read. Whatever recorder listens to a compiler, what it holds after either
form of compiling the source traces the tree in preorder. -/
theorem trace_preorder (options : Options) (recorder : String) {source : Source}
    {document : Document} (hparses : source.Parses document) :
    TracesPreorder options.channel document (tryCompile options.formatVersion source).value
        (((Session.recording options recorder).act (.tryCompile source)).2.recorded recorder) ∧
      TracesPreorder options.channel document (tryCompile options.formatVersion source).value
        (((Session.recording options recorder).act (.compile source)).2.recorded recorder) := by
  obtain ⟨text, hparse, hforms⟩ := hparses.exists_text
  obtain ⟨htry, hcompile⟩ := hforms options.formatVersion
  have htraces := tracesPreorder_compileText options.formatVersion options.channel hparse
  rw [Session.act_tryCompile_recording, Session.act_compile_recording,
    Session.recorded_emitAll_recording, Session.recorded_emitAll_recording, htry, hcompile]
  exact ⟨htraces, htraces⟩

/-- The second of three tags is unknown. It stands behind six of the seven traced nodes. -/
theorem trace_preorder_unknown_tag :
    ∃ document, Source.Parses (.text "[dlg a [b<n>]]<f 1 2>\n<q>x<f 3 4>".toList) document ∧
      TracesPreorder "script" document none
        (((Session.recording ⟨.v1, "script"⟩ "log").act
          (.tryCompile (.text "[dlg a [b<n>]]<f 1 2>\n<q>x<f 3 4>".toList))).2.recorded "log") ∧
      document.node.complaints = [⟨"Unknown tag with id q", ⟨2, 1⟩⟩] ∧
      document.node.traced.map (fun node ↦ (node.rule, node.place.position)) =
        [(.compilationUnit, ⟨1, 1⟩), (.dialogWindow, ⟨1, 1⟩), (.speakerName, ⟨1, 8⟩),
          (.tagText, ⟨1, 9⟩), (.tagText, ⟨1, 15⟩), (.tag, ⟨1, 15⟩), (.tag, ⟨2, 5⟩)] := by
  have hparse : parse (Utf8.dropMark "[dlg a [b<n>]]<f 1 2>\n<q>x<f 3 4>".toList) =
      .ok ⟨[], [.dialog ⟨[], ['d', 'l', 'g'], some ⟨[' '], ['a']⟩, [' '],
        some [.run ['b'], .tag ⟨[], some ['n'], [], []⟩], [],
        [.tag ⟨[], some ['f'], [⟨[' '], ['1']⟩, ⟨[' '], ['2']⟩], []⟩, .run ['\n'],
          .tag ⟨[], some ['q'], [], []⟩, .run ['x'],
          .tag ⟨[], some ['f'], [⟨[' '], ['3']⟩, ⟨[' '], ['4']⟩], []⟩]⟩]⟩ := by cbv
  have hvalue : (tryCompile .v1 (.text "[dlg a [b<n>]]<f 1 2>\n<q>x<f 3 4>".toList)).value =
      none := by cbv
  have htraces := (trace_preorder ⟨.v1, "script"⟩ "log" (.text hparse)).1
  rw [hvalue] at htraces
  exact ⟨_, .text hparse, htraces, by cbv, by cbv⟩

end DialogueScript
