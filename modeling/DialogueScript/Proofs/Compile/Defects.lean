import DialogueScript.Proofs.Compile.Meaning
import DialogueScript.Proofs.Compile.Step

/-!
# The first defect of a source

`Node.complaints` lists all that is wrong with a source that can be read. It goes through the nodes
of the tree in the order of the source and knows nothing of compiling: every complaint is a wording
and the position of a node, and none of them depends on another.

The compiler stops at the first defect that it meets. It meets them in the order of the list, so
that its one error is the first complaint, and it gives a script exactly if there is none
(`tryCompile_first_complaint`).
-/

set_option autoImplicit false
set_option relaxedAutoImplicit false

namespace DialogueScript

open Syntax

namespace Syntax.Node

/-! ### What is wrong with a tree -/

/-- A complaint about a node. -/
def complaint (node : Node) (message : String) : Complaint :=
  ⟨message, node.place.position⟩

/-- A literal has a value. -/
def literalComplaints (literal : Node) : List Complaint :=
  match Literal.value literal.text with
  | .ok _ => []
  | .error error => [literal.complaint ("Invalid integer format: " ++ error.message)]

/-- A call has two literals at least, and all of them have values. -/
def callComplaints (tag : Node) : List Complaint :=
  match tag.childrenOf .intLiteral with
  | [] => [tag.complaint "Expected function tag arguments"]
  | [table] => table.literalComplaints ++ [tag.complaint "Expected function index"]
  | literals => literals.flatMap literalComplaints

/-- A tag has an id, which is one of three letters in either case. The literals of a tag matter only
if it is a call. -/
def tagComplaints (tag : Node) : List Complaint :=
  match tag.child? .tagId with
  | none => [tag.complaint "Expected tag id"]
  | some id =>
    if id.text = ['f'] ∨ id.text = ['F'] then tag.callComplaints
    else if id.text = ['n'] ∨ id.text = ['N'] ∨ id.text = ['e'] ∨ id.text = ['E'] then []
    else [tag.complaint ("Unknown tag with id " ++ String.ofList id.text)]

/-- The tags of a text are right. -/
def textComplaints (text : Node) : List Complaint :=
  (text.childrenOf .tag).flatMap tagComplaints

/-- A window has an identifier. -/
def identifierComplaints (window : Node) : List Complaint :=
  if (window.child? .identifier).isSome then []
  else if window.rule = .dialogWindow then [window.complaint "Expected dialog window name"]
  else [window.complaint "Expected selection window name"]

/-- The texts of a window: that of its speaker, if it has one, and that of the window itself. -/
def windowTexts (window : Node) : List Node :=
  (window.childrenOf .speakerName).flatMap (·.childrenOf .tagText) ++ window.childrenOf .tagText

/-- A window has an identifier, and its texts are right. -/
def windowComplaints (window : Node) : List Complaint :=
  window.identifierComplaints ++ window.windowTexts.flatMap textComplaints

/-- All that is wrong with a source, given the node of the whole of it. -/
def complaints (unit : Node) : List Complaint :=
  match unit.childrenOf .messageWindow with
  | [] => [unit.complaint "Expected at least one message window"]
  | windows => windows.flatMap fun window ↦ window.children.flatMap windowComplaints

end Syntax.Node

/-! ### Tags -/

theorem reports_literalValue (literal : Located (List Char)) :
    (literalValue literal).Reports
      (Node.leaf .intLiteral literal.place literal.value).literalComplaints := by
  unfold literalValue Node.literalComplaints
  change Step.Reports _ (match Literal.value literal.value with | .ok _ => _ | .error _ => _)
  cases Literal.value literal.value with
  | ok n => exact Step.Reports.pure n
  | error e => exact Step.Reports.fail (.malformedLiteral e) literal.place.position []

/-- The literals of the node of a tag. -/
theorem childrenOf_intLiteral_tag (tag : Tag) (place : Place) :
    (tag.node place).childrenOf .intLiteral =
      (tag.literals place).map fun literal ↦ .leaf .intLiteral literal.place literal.value := by
  have hid : (tag.id.toList.map (Node.leaf .tagId (place.after tag.beforeId))).filter
      (·.rule = .intLiteral) = [] := by
    cases tag.id <;> rfl
  have hliterals : ∀ literals : List (Located (List Char)),
      (literals.map fun literal ↦ Node.leaf .intLiteral literal.place literal.value).filter
        (·.rule = .intLiteral) =
          literals.map fun literal ↦ Node.leaf .intLiteral literal.place literal.value := by
    intro literals
    exact List.filter_eq_self.mpr (by simp [Node.leaf])
  rw [Tag.node, Node.childrenOf, List.filter_append, hid, hliterals, List.nil_append]

/-- The id of the node of a tag. -/
theorem child?_tagId_tag (tag : Tag) (place : Place) :
    (tag.node place).child? .tagId =
      tag.id.map (Node.leaf .tagId (place.after tag.beforeId)) := by
  have hliterals : ∀ literals : List (Located (List Char)),
      (literals.map fun literal ↦ Node.leaf .intLiteral literal.place literal.value).find?
        (·.rule = .tagId) = none := by
    intro literals
    exact List.find?_eq_none.mpr (by simp [Node.leaf])
  rw [Tag.node, Node.child?, List.find?_append, hliterals]
  cases tag.id <;> rfl

theorem reports_forEach_literalValue (literals : List (Located (List Char))) :
    (Step.forEach literalValue literals).Reports
      ((literals.map fun literal ↦ Node.leaf .intLiteral literal.place literal.value).flatMap
        Node.literalComplaints) := by
  rw [List.flatMap_map]
  exact Step.Reports.forEach fun literal _ ↦ reports_literalValue literal

theorem reports_call (tag : Tag) (place : Place) :
    (tag.call place).Reports (tag.node place).callComplaints := by
  unfold Tag.call Node.callComplaints
  rw [childrenOf_intLiteral_tag]
  match tag.literals place with
  | [] => exact Step.Reports.fail .callWithoutArguments place.position []
  | [table] =>
    exact (reports_literalValue table).bind fun _ _ ↦
      Step.Reports.fail .callWithoutIndex place.position []
  | table :: index :: arguments =>
    have hpure := fun (t i : Int16) (values : List Int16) ↦
      Step.Reports.pure (Token.function t i values)
    have hreports := (reports_literalValue table).bind fun t _ ↦
      (reports_literalValue index).bind fun i _ ↦
        (reports_forEach_literalValue arguments).bind fun values _ ↦ hpure t i values
    rw [List.append_nil] at hreports
    exact hreports

/-- A tag fails with the first thing that is wrong with it. -/
theorem reports_token (tag : Tag) (place : Place) :
    (tag.token place).Reports (tag.node place).tagComplaints := by
  unfold Tag.token Node.tagComplaints
  rw [child?_tagId_tag]
  cases tag.id with
  | none => exact Step.Reports.fail .tagWithoutId place.position []
  | some id =>
    have hcall : id = ['f'] ∨ id = ['F'] ↔ Control.ofId? id = some .call :=
      (@Control.ofId?_eq_some_iff id .call).symm
    have hother : id = ['n'] ∨ id = ['N'] ∨ id = ['e'] ∨ id = ['E'] ↔
        Control.ofId? id = some .newLine ∨ Control.ofId? id = some .endLine := by
      rw [Control.ofId?_eq_some_iff, Control.ofId?_eq_some_iff, or_assoc]
      rfl
    simp only [Option.map_some, Node.leaf, hcall, hother]
    cases Control.ofId? id with
    | none => exact Step.Reports.fail (.unknownTag id) place.position []
    | some control =>
      cases control with
      | call =>
        exact (Step.Reports.report (Or.inl rfl)).bind fun _ _ ↦ (reports_call tag place).map some
      | newLine => exact Step.Reports.pure (some Token.newLine)
      | endLine => exact Step.Reports.pure none

/-! ### Texts -/

theorem textComplaints_run (run : List Char) (rest : TaggedText) (place : Place) :
    (TaggedText.node (.run run :: rest) place).textComplaints =
      (TaggedText.node rest (place.after run)).textComplaints := rfl

theorem textComplaints_tag (tag : Tag) (rest : TaggedText) (place : Place) :
    (TaggedText.node (.tag tag :: rest) place).textComplaints =
      (tag.node place).tagComplaints ++
        (TaggedText.node rest (place.after tag.text)).textComplaints := rfl

/-- Runs are always right, and the tags of a text are compiled in order. -/
theorem reports_linesFrom (items : TaggedText) (place : Place) (begun : List Token) :
    (items.linesFrom place begun).Reports (items.node place).textComplaints := by
  induction items generalizing place begun with
  | nil => exact Step.Reports.pure _
  | cons item rest ih =>
    cases item with
    | run run =>
      rw [textComplaints_run]
      exact ih (place.after run) (begun ++ runTokens run)
    | tag tag =>
      rw [textComplaints_tag]
      refine (reports_token tag place).bind fun mark _ ↦ ?_
      cases mark with
      | some token => exact ih (place.after tag.text) (begun ++ [token])
      | none =>
        exact (Step.Reports.reportIf (Or.inr rfl)).bind fun _ _ ↦
          (ih (place.after tag.text) []).map _

theorem reports_lines (items : TaggedText) (place : Place) :
    (items.lines place).Reports (items.node place).textComplaints :=
  (Step.Reports.report (Or.inl rfl)).bind fun _ _ ↦ reports_linesFrom items place []

/-! ### Windows -/

theorem reports_optionalSpeaker (speaker : Option TaggedText) (place : Place) :
    (optionalSpeaker speaker place).Reports
      ((speaker.toList.map fun name ↦ name.node (speakerTextPlace place)).flatMap
        Node.textComplaints) := by
  cases speaker with
  | none => exact Step.Reports.pure none
  | some name =>
    refine (Step.Reports.report (Or.inl rfl)).bind fun _ _ ↦ ?_
    refine (reports_lines name (speakerTextPlace place)).bind fun lines _ ↦ ?_
    exact (Step.Reports.reportIf (Or.inr rfl)).bind fun _ _ ↦
      Step.Reports.pure (lines.head?.map Speaker.named)

/-- What is wrong with a dialog window: its label, its speaker, its body. -/
theorem windowComplaints_dialog (window : Dialog) (place : Place) :
    (window.node place).windowComplaints =
      (if window.label.isSome then [] else [⟨"Expected dialog window name", place.position⟩]) ++
        ((window.speaker.toList.map fun name ↦
          name.node (speakerTextPlace (window.speakerPlace place))).flatMap Node.textComplaints ++
            (window.body.node (window.bodyPlace place)).textComplaints) := by
  obtain ⟨lead, keyword, label, gap, speaker, tail, body⟩ := window
  unfold Node.windowComplaints Node.windowTexts
  rw [List.flatMap_append]
  cases label <;> cases speaker <;> exact congrArg _ (congrArg _ (List.append_nil _))

/-- What is wrong with a selection window: its label, its body. -/
theorem windowComplaints_selection (window : Selection) (place : Place) :
    (window.node place).windowComplaints =
      (if window.label.isSome then [] else [⟨"Expected selection window name", place.position⟩]) ++
        (window.body.node (window.bodyPlace place)).textComplaints := by
  obtain ⟨lead, keyword, label, tail, body⟩ := window
  cases label <;> exact congrArg _ (List.append_nil _)

theorem reports_requiredName (label : Option Label) (defect : Defect) (position : Position) :
    (requiredName label defect position).Reports
      (if label.isSome then [] else [⟨defect.message, position⟩]) := by
  cases label with
  | none => exact Step.Reports.fail defect position []
  | some label => exact Step.Reports.pure (String.ofList label.identifier)

/-- The identifier of a dialog window comes first, then its speaker, then its body. -/
theorem reports_dialog (window : Dialog) (place : Place) :
    (window.compile place).Reports (window.node place).windowComplaints := by
  rw [windowComplaints_dialog]
  refine (Step.Reports.report (Or.inl rfl)).bind fun _ _ ↦ ?_
  refine (reports_requiredName window.label .dialogWithoutName place.position).bind
    fun identifier _ ↦ ?_
  refine (reports_optionalSpeaker window.speaker (window.speakerPlace place)).bind fun who _ ↦ ?_
  have hreports := (reports_lines window.body (window.bodyPlace place)).bind fun lines _ ↦
    Step.Reports.pure (DialogWindow.mk identifier who lines)
  rw [List.append_nil] at hreports
  exact hreports

/-- The identifier of a selection window comes first, then its body. -/
theorem reports_selection (window : Selection) (place : Place) :
    (window.compile place).Reports (window.node place).windowComplaints := by
  rw [windowComplaints_selection]
  refine (Step.Reports.report (Or.inl rfl)).bind fun _ _ ↦ ?_
  refine (reports_requiredName window.label .selectionWithoutName place.position).bind
    fun identifier _ ↦ ?_
  have hreports := (reports_lines window.body (window.bodyPlace place)).bind fun lines _ ↦
    Step.Reports.pure (SelectionWindow.mk identifier lines)
  rw [List.append_nil] at hreports
  exact hreports

theorem reports_compileWindow (window : Located Syntax.Window) :
    (compileWindow window).Reports
      ((window.value.node window.place).children.flatMap Node.windowComplaints) := by
  obtain ⟨place, window⟩ := window
  cases window with
  | dialog w =>
    change Step.Reports _ ((w.node place).windowComplaints ++ [])
    rw [List.append_nil]
    exact (reports_dialog w place).map _
  | selection w =>
    change Step.Reports _ ((w.node place).windowComplaints ++ [])
    rw [List.append_nil]
    exact (reports_selection w place).map _

/-! ### Sources -/

/-- The windows of a document are compiled in order. -/
theorem reports_script (document : Document) (version : FormatVersion) :
    (document.script version).Reports document.node.complaints := by
  unfold Document.script Node.complaints
  rw [childrenOf_messageWindow_document]
  refine (Step.Reports.report (Or.inl rfl)).bind fun _ _ ↦ ?_
  cases document.windows with
  | nil => exact Step.Reports.fail .noWindows Position.start []
  | cons window rest =>
    have hreports : (Step.forEach compileWindow
        (locate Window.text document.windowsPlace (window :: rest))).Reports
          (((locate Window.text document.windowsPlace (window :: rest)).map
            fun window ↦ window.value.node window.place).flatMap
              fun node ↦ node.children.flatMap Node.windowComplaints) := by
      rw [List.flatMap_map]
      exact Step.Reports.forEach fun w _ ↦ reports_compileWindow w
    exact hreports.map (Script.mk version)

/-- Passing findings are no errors. -/
theorem filter_error_eq_nil {channel : String} {findings : List Finding}
    (hpassing : ∀ finding ∈ findings, finding.IsPassing) :
    (findings.map (·.toEvent channel)).filter (·.level = .error) = [] := by
  refine List.filter_eq_nil_iff.mpr fun event hevent ↦ ?_
  obtain ⟨finding, hfinding, rfl⟩ := List.mem_map.mp hevent
  have hlevel : finding.level ≠ .error := by
    rcases hpassing finding hfinding with h | h <;> simp [h]
  exact fun herror ↦ hlevel (of_decide_eq_true herror)

/-- Assumes: a source is read. The compiler gives a script exactly if there is nothing to complain
about, and otherwise its one error is the first complaint. -/
theorem tryCompile_first_complaint (options : Options) {source : List Char} {document : Document}
    (hparse : parse (Utf8.dropMark source) = .ok document) :
    ((tryCompile options.formatVersion (.text source)).value.isSome ↔
        document.node.complaints = []) ∧
      ((tryCompile options.formatVersion (.text source)).findings.map
        (·.toEvent options.channel)).filter (·.level = .error) =
          document.node.complaints.head?.toList.map fun first ↦
            ⟨options.channel, .error, first.message, some first.position⟩ := by
  have hreports := reports_script document options.formatVersion
  simp only [tryCompile, compileText, hparse]
  generalize document.node.complaints = complaints at hreports ⊢
  generalize document.script options.formatVersion = step at hreports ⊢
  cases hreports with
  | done hpassing =>
    exact ⟨iff_of_true rfl rfl, filter_error_eq_nil hpassing⟩
  | @stopped before defect position later hpassing =>
    refine ⟨iff_of_false (by simp [giveUp]) (List.cons_ne_nil _ _), ?_⟩
    simp only [giveUp, List.map_append, List.filter_append, filter_error_eq_nil hpassing]
    rfl

/-- Two literals are malformed, but the first belongs to no call, and two tags behind the other one
are wrong as well. -/
theorem tryCompile_malformed_literal :
    (tryCompile .v1 (.text "[sel a]x<n 0xZZ>\n<f 0xZ><q><>".toList)).value.isSome = false ∧
      ((tryCompile .v1 (.text "[sel a]x<n 0xZZ>\n<f 0xZ><q><>".toList)).findings.map
        (·.toEvent "script")).filter (·.level = .error) =
          [⟨"script", .error, "Invalid integer format: '0xZ' is not a hexadecimal number",
            some ⟨2, 4⟩⟩] := by
  have hparse : parse (Utf8.dropMark "[sel a]x<n 0xZZ>\n<f 0xZ><q><>".toList) =
      .ok ⟨[], [.selection ⟨[], ['s', 'e', 'l'], some ⟨[' '], ['a']⟩, [],
        [.run ['x'], .tag ⟨[], some ['n'], [⟨[' '], ['0', 'x', 'Z', 'Z']⟩], []⟩, .run ['\n'],
          .tag ⟨[], some ['f'], [⟨[' '], ['0', 'x', 'Z']⟩], []⟩,
          .tag ⟨[], some ['q'], [], []⟩, .tag ⟨[], none, [], []⟩]⟩]⟩ := by cbv
  obtain ⟨hscript, herrors⟩ := tryCompile_first_complaint ⟨.v1, "script"⟩ hparse
  refine ⟨Bool.eq_false_iff.mpr fun hsome ↦ ?_, herrors⟩
  exact absurd (hscript.mp hsome) (List.cons_ne_nil _ _)

end DialogueScript
