import DialogueScript.Proofs.Compile.Correctness

/-!
# What a compilation warns about

The warnings of a compilation can be told from what it gives. Steps warn one behind another
(`Step.warnings_bind`), and of the steps on a tree only two warn at all: the end of a line without
tokens, and a speaker name of several lines. A text therefore warns once for every empty line that
it gives (`warnings_lines`), and a script whose speaker names have at most one line and no empty one
warns once for every empty line of its windows (`warnings_script`).
-/

set_option autoImplicit false
set_option relaxedAutoImplicit false

namespace DialogueScript

open Syntax

/-- The messages of the warnings among findings. -/
def warningMessages (findings : List Finding) : List String :=
  (findings.filter (·.level = .warning)).map Finding.message

theorem warningMessages_append (first second : List Finding) :
    warningMessages (first ++ second) = warningMessages first ++ warningMessages second := by
  rw [warningMessages, List.filter_append, List.map_append]
  rfl

/-! ### Steps -/

namespace Step

variable {α β : Type}

/-- The messages of what a step warns about. -/
def warnings (step : Step α) : List String :=
  warningMessages step.findings

@[simp] theorem warnings_pure (a : α) : (pure a : Step α).warnings = [] := rfl

@[simp] theorem warnings_map (f : α → β) (step : Step α) : (f <$> step).warnings = step.warnings :=
  rfl

/-- Assumes: the first of two steps has a value. Their warnings follow each other. -/
theorem warnings_bind {first : Step α} {next : α → Step β} {a : α} (h : first.value = some a) :
    (first >>= next).warnings = first.warnings ++ (next a).warnings := by
  rw [bind_of_value h]
  exact warningMessages_append first.findings (next a).findings

/-- A report in front of a step. -/
theorem warnings_report_bind (finding : Finding) (next : Unit → Step β) :
    (report finding >>= next).warnings = warningMessages [finding] ++ (next ()).warnings :=
  warnings_bind rfl

/-- A report under a condition in front of a step. -/
theorem warnings_reportIf_bind (condition : Bool) (finding : Finding) (next : Unit → Step β) :
    (reportIf condition finding >>= next).warnings =
      (if condition then warningMessages [finding] else []) ++ (next ()).warnings := by
  rw [warnings_bind rfl]
  cases condition <;> rfl

/-- Steps that never warn do not warn one behind another. -/
theorem warnings_bind_eq_nil {first : Step α} {next : α → Step β} (hfirst : first.warnings = [])
    (hnext : ∀ a, (next a).warnings = []) : (first >>= next).warnings = [] := by
  cases hvalue : first.value with
  | some a => rw [warnings_bind hvalue, hfirst, hnext, List.append_nil]
  | none =>
    obtain ⟨findings, value⟩ := first
    obtain rfl : value = none := hvalue
    exact hfirst

theorem warnings_forEach_eq_nil {step : α → Step β} (hstep : ∀ a, (step a).warnings = [])
    (inputs : List α) : (forEach step inputs).warnings = [] := by
  induction inputs with
  | nil => rfl
  | cons input rest ih => exact warnings_bind_eq_nil (hstep input) fun _ ↦ ih

/-- Assumes: a list of steps that have values, and what each of them warns about is told by its
value. The warnings of all steps are told by all values. -/
theorem warnings_forEach {step : α → Step β} {warned : β → List String} {inputs : List α}
    {outputs : List β}
    (h : List.Forall₂ (fun input output ↦ (step input).value = some output ∧
      (step input).warnings = warned output) inputs outputs) :
    (forEach step inputs).warnings = outputs.flatMap warned := by
  induction h with
  | nil => rfl
  | cons hfirst _ ih =>
    rw [forEach, warnings_bind hfirst.1, warnings_map, hfirst.2, ih, List.flatMap_cons]

end Step

/-! ### Tags -/

theorem warnings_literalValue (literal : Located (List Char)) :
    (literalValue literal).warnings = [] := by
  unfold literalValue
  split <;> rfl

theorem warnings_call (tag : Tag) (place : Place) : (tag.call place).warnings = [] := by
  unfold Tag.call
  split
  · rfl
  · refine Step.warnings_bind_eq_nil (warnings_literalValue _) fun table ↦ ?_
    split
    · rfl
    · refine Step.warnings_bind_eq_nil (warnings_literalValue _) fun index ↦ ?_
      exact Step.warnings_bind_eq_nil (Step.warnings_forEach_eq_nil warnings_literalValue _)
        fun _ ↦ rfl

/-- A tag by itself is no reason for a warning. -/
theorem warnings_token (tag : Tag) (place : Place) : (tag.token place).warnings = [] := by
  unfold Tag.token
  split
  · rfl
  · split
    · rfl
    · exact Step.warnings_bind_eq_nil rfl fun _ ↦ warnings_call tag place
    · rfl
    · rfl

/-! ### Texts -/

/-- The warnings about lines: one for every empty line. -/
def lineWarnings (lines : List Line) : List String :=
  List.replicate (lines.countP Line.isEmpty) "Empty line"

theorem lineWarnings_cons (line : Line) (later : List Line) :
    lineWarnings (line :: later) =
      (if line.isEmpty then ["Empty line"] else []) ++ lineWarnings later := by
  unfold lineWarnings
  rw [List.countP_cons]
  split_ifs with hempty
  · rw [List.replicate_succ, List.singleton_append]
  · rw [Nat.add_zero, List.nil_append]

/-- The lines of a text behind tokens of the current line. The induction is on the items. Only the
end of a line adds a line that may be empty, and it warns if the line is. -/
theorem warnings_linesFrom {items : TaggedText} {place : Place} {begun : List Token}
    {lines : List Line} (h : (items.linesFrom place begun).value = some lines) :
    (items.linesFrom place begun).warnings = lineWarnings lines := by
  induction items generalizing place begun lines with
  | nil =>
    rw [TaggedText.linesFrom, Step.value_pure, Option.some_inj] at h
    rw [TaggedText.linesFrom, Step.warnings_pure, ← h]
    cases begun <;> rfl
  | cons item rest ih =>
    cases item with
    | run text =>
      rw [TaggedText.linesFrom] at h ⊢
      exact ih h
    | tag t =>
      rw [TaggedText.linesFrom] at h ⊢
      obtain ⟨mark, hmark, h⟩ := Step.value_bind_eq_some_iff.mp h
      rw [Step.warnings_bind hmark, warnings_token, List.nil_append]
      cases mark with
      | some token => exact ih h
      | none =>
        dsimp only at h ⊢
        rw [Step.value_reportIf_bind, Step.value_map, Option.map_eq_some_iff] at h
        obtain ⟨later, hlater, rfl⟩ := h
        rw [Step.warnings_reportIf_bind, Step.warnings_map, ih hlater, lineWarnings_cons]
        rfl

/-- A text warns once for every empty line that it gives. -/
theorem warnings_lines {items : TaggedText} {place : Place} {lines : List Line}
    (h : (items.lines place).value = some lines) :
    (items.lines place).warnings = lineWarnings lines := by
  rw [TaggedText.lines, Step.value_report_bind] at h
  rw [TaggedText.lines, Step.warnings_report_bind, warnings_linesFrom h]
  rfl

/-! ### Windows and scripts -/

/-- The lines of a speaker name are at most one, which is not empty. -/
def Syntax.Outline.ShortName (speaker : Option Outline.Text) : Prop :=
  ∀ name ∈ speaker, ∀ lines, Outline.Text.Means name lines →
    lines.length ≤ 1 ∧ ∀ line ∈ lines, line.isEmpty = false

/-- The speaker name of a window, if it has one, is short. -/
def Syntax.Outline.Window.ShortName : Outline.Window → Prop
  | .dialog _ speaker _ => Outline.ShortName speaker
  | .selection .. => True

theorem warnings_requiredName (label : Option Label) (defect : Defect) (position : Position) :
    (requiredName label defect position).warnings = [] := by
  cases label <;> rfl

/-- Assumes: a speaker with a short name. Nothing is wrong with the name. -/
theorem warnings_optionalSpeaker {speaker : Option TaggedText} {place : Place}
    {who : Option Speaker} (hshort : Outline.ShortName (speaker.map TaggedText.outline))
    (h : (optionalSpeaker speaker place).value = some who) :
    (optionalSpeaker speaker place).warnings = [] := by
  cases speaker with
  | none => rfl
  | some name =>
    rw [optionalSpeaker, speakerOf, Step.value_report_bind] at h
    obtain ⟨lines, hlines, _⟩ := Step.value_bind_eq_some_iff.mp h
    obtain ⟨hlength, hempty⟩ := hshort name.outline rfl lines (value_lines_iff.mp hlines)
    have hnone : lineWarnings lines = [] := by
      rw [lineWarnings, List.countP_eq_zero.mpr fun line hline ↦ by simp [hempty line hline]]
      rfl
    rw [optionalSpeaker, speakerOf, Step.warnings_report_bind, Step.warnings_bind hlines,
      warnings_lines hlines, hnone, Step.warnings_reportIf_bind,
      if_neg (by simpa using hlength)]
    rfl

/-- Assumes: a window with a short speaker name. It warns once for every empty line of its text. -/
theorem warnings_compileWindow {window : Located Syntax.Window} {compiled : DialogueScript.Window}
    (hshort : window.value.outline.ShortName) (h : (compileWindow window).value = some compiled) :
    (compileWindow window).warnings = lineWarnings compiled.lines := by
  obtain ⟨place, window⟩ := window
  cases window with
  | dialog w =>
    rw [compileWindow, Step.value_map, Option.map_eq_some_iff] at h
    obtain ⟨_, h, rfl⟩ := h
    rw [Dialog.compile, Step.value_report_bind] at h
    obtain ⟨identifier, hidentifier, h⟩ := Step.value_bind_eq_some_iff.mp h
    obtain ⟨speaker, hspeaker, h⟩ := Step.value_bind_eq_some_iff.mp h
    obtain ⟨lines, hlines, h⟩ := Step.value_bind_eq_some_iff.mp h
    obtain rfl := Option.some.inj h
    rw [compileWindow, Step.warnings_map, Dialog.compile, Step.warnings_report_bind,
      Step.warnings_bind hidentifier, warnings_requiredName, Step.warnings_bind hspeaker,
      warnings_optionalSpeaker hshort hspeaker, Step.warnings_bind hlines, warnings_lines hlines,
      Step.warnings_pure, List.append_nil]
    rfl
  | selection w =>
    rw [compileWindow, Step.value_map, Option.map_eq_some_iff] at h
    obtain ⟨_, h, rfl⟩ := h
    rw [Selection.compile, Step.value_report_bind] at h
    obtain ⟨identifier, hidentifier, h⟩ := Step.value_bind_eq_some_iff.mp h
    obtain ⟨lines, hlines, h⟩ := Step.value_bind_eq_some_iff.mp h
    obtain rfl := Option.some.inj h
    rw [compileWindow, Step.warnings_map, Selection.compile, Step.warnings_report_bind,
      Step.warnings_bind hidentifier, warnings_requiredName, Step.warnings_bind hlines,
      warnings_lines hlines, Step.warnings_pure, List.append_nil]
    rfl

/-- The warnings about lines are those about the lines of each window. -/
theorem flatMap_lineWarnings (windows : List DialogueScript.Window) :
    windows.flatMap (fun window ↦ lineWarnings window.lines) =
      lineWarnings (windows.flatMap Window.lines) := by
  induction windows with
  | nil => rfl
  | cons window rest ih =>
    rw [List.flatMap_cons, List.flatMap_cons, ih, lineWarnings, lineWarnings,
      List.replicate_append_replicate, ← List.countP_append, lineWarnings]

/-- Assumes: a document whose speaker names are short gives a script. It warns once for every empty
line of its windows. -/
theorem warnings_script {document : Document} {version : FormatVersion} {script : Script}
    (hshort : ∀ window ∈ document.outline, window.ShortName)
    (h : (document.script version).value = some script) :
    (document.script version).warnings = lineWarnings (script.windows.flatMap Window.lines) := by
  rw [Document.script, Step.value_report_bind] at h
  rw [Document.script, Step.warnings_report_bind]
  cases hlist : document.windows with
  | nil =>
    rw [hlist] at h
    exact absurd h (by simp)
  | cons window rest =>
    rw [hlist] at h
    dsimp only at h ⊢
    rw [Step.value_map, Option.map_eq_some_iff] at h
    obtain ⟨windows, hwindows, rfl⟩ := h
    rw [Step.value_forEach_eq_some_iff] at hwindows
    have hlocated : ∀ located ∈ locate Window.text document.windowsPlace (window :: rest),
        located.value.outline.ShortName := by
      intro located hmem
      refine hshort _ (List.mem_map.mpr ⟨located.value, ?_, rfl⟩)
      rw [hlist, ← map_value_locate Window.text document.windowsPlace (window :: rest)]
      exact List.mem_map.mpr ⟨located, hmem, rfl⟩
    have hwarned := (List.forall₂_and_left _ _).mpr ⟨hlocated, hwindows⟩
    rw [Step.warnings_map, Step.warnings_forEach (hwarned.imp fun located compiled hboth ↦
      ⟨hboth.2, warnings_compileWindow hboth.1 hboth.2⟩), flatMap_lineWarnings]
    rfl

end DialogueScript
