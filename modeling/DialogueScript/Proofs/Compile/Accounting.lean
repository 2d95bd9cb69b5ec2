import DialogueScript.Proofs.Compile.Assembly
import DialogueScript.Proofs.Compile.Canonical
import DialogueScript.Proofs.Compile.Concatenation
import DialogueScript.Proofs.Compile.Trace

/-!
# An account of all warnings

A window that compiles reports what it enters, then the text of its speaker name, and then its own
text (`windowReports`). Between the two texts there is a warning if the name has several lines. Each
text warns about its empty lines, so the warnings of a script are these and no others
(`warnings_accounted`), also where a name has lines that the script does not keep.
-/

set_option autoImplicit false
set_option relaxedAutoImplicit false

namespace DialogueScript

open Syntax

/-- Who speaks in a window, if somebody does. -/
def Window.speaker? : Window → Option Speaker
  | .dialog window => window.speaker
  | .selection _ => none

namespace Syntax

/-! ### The texts of a window -/

/-- The compilation of a text in its place. -/
def textLines (text : Located TaggedText) : Step (List Line) :=
  text.value.lines text.place

/-- The text of the speaker name, if the header holds one. -/
def nameText? (window : Located Window) : Option (Located TaggedText) :=
  match window.value with
  | .dialog w => w.speaker.map (⟨speakerTextPlace (w.speakerPlace window.place), ·⟩)
  | .selection _ => none

/-- The text behind the header. -/
def bodyText (window : Located Window) : Located TaggedText :=
  match window.value with
  | .dialog w => ⟨w.bodyPlace window.place, w.body⟩
  | .selection w => ⟨w.bodyPlace window.place, w.body⟩

/-- All lines of the speaker name, also those that are not kept. -/
def nameLines (window : Located Window) : List Line :=
  ((nameText? window).bind fun text ↦ (textLines text).value).getD []

/-- The speaker name of a window has several lines. -/
def hasExtraLines (window : Located Window) : Bool :=
  1 < (nameLines window).length

/-! ### What a window reports -/

/-- The entries in front of the texts of a window: its own and that of its speaker name. -/
def openings (window : Located Window) : List Finding :=
  match window.value with
  | .dialog w => .entered .dialogWindow window.place.position ::
      w.speaker.toList.map fun _ ↦ .entered .speakerName (w.speakerPlace window.place).position
  | .selection _ => [.entered .selectionWindow window.place.position]

/-- The warning about several lines of a speaker name. -/
def extraLines (window : Located Window) : List Finding :=
  if hasExtraLines window then
    (nameText? window).toList.map fun text ↦
      .extraNameLines (nameLines window).length text.place.position
  else []

/-- The reports of the text of a speaker name. -/
def nameReports (window : Located Window) : List Finding :=
  (nameText? window).toList.flatMap fun text ↦ (textLines text).findings

/-- All reports of a window that compiles. -/
def windowReports (window : Located Window) : List Finding :=
  openings window ++ nameReports window ++ extraLines window ++
    (textLines (bodyText window)).findings

end Syntax

/-- What becomes of the texts of a window: the first line of its speaker name is kept, and all lines
of its own text, which are the same wherever the text stands. -/
structure Keeps (window : Located Syntax.Window) (compiled : Window) : Prop where
  name : ∀ text ∈ nameText? window, (textLines text).value = some (nameLines window)
  speaker : compiled.speaker? = (nameLines window).head?.map .named
  body : ∀ place, ((bodyText window).value.lines place).value = some compiled.lines

theorem value_lines_elsewhere {items : TaggedText} {place : Place} {lines : List Line}
    (h : (items.lines place).value = some lines) (other : Place) :
    (items.lines other).value = some lines :=
  value_lines_iff.mpr (value_lines_iff.mp h)

/-- Assumes: a speaker name compiles. It reports its entry, its text, and whether it has several
lines. -/
theorem speakerOf_eq {name : TaggedText} {place : Place} {who : Option Speaker}
    (h : (speakerOf name place).value = some who) :
    ∃ lines, (name.lines (speakerTextPlace place)).value = some lines ∧
      who = lines.head?.map .named ∧
      (speakerOf name place).findings = .entered .speakerName place.position ::
        ((name.lines (speakerTextPlace place)).findings ++ if 1 < lines.length then
          [.extraNameLines lines.length (speakerTextPlace place).position] else []) := by
  rw [speakerOf, Step.value_report_bind] at h
  obtain ⟨lines, hlines, hwho⟩ := Step.value_bind_eq_some_iff.mp h
  refine ⟨lines, hlines, (Option.some.inj hwho).symm, ?_⟩
  rw [speakerOf, Step.bind_of_value rfl, Step.bind_of_value hlines]
  change _ :: (_ ++ ((if decide (1 < lines.length) = true then _ else []) ++ [])) = _
  rw [List.append_nil]
  simp only [decide_eq_true_eq]

theorem findings_requiredName {label : Option Label} {defect : Defect} {position : Position}
    {identifier : String} (h : (requiredName label defect position).value = some identifier) :
    (requiredName label defect position).findings = [] := by
  cases label with
  | none => exact absurd h (by simp [requiredName])
  | some label => rfl

/-- Assumes: a dialog window compiles. Its entry is in front of its speaker, and the speaker in
front of its text. -/
theorem compile_dialog_eq {w : Dialog} {place : Place} {compiled : DialogWindow}
    (h : (w.compile place).value = some compiled) :
    (optionalSpeaker w.speaker (w.speakerPlace place)).value = some compiled.speaker ∧
      (w.body.lines (w.bodyPlace place)).value = some compiled.lines ∧
      (w.compile place).findings = .entered .dialogWindow place.position ::
        ((optionalSpeaker w.speaker (w.speakerPlace place)).findings ++
          (w.body.lines (w.bodyPlace place)).findings) := by
  rw [Dialog.compile, Step.value_report_bind] at h
  obtain ⟨identifier, hidentifier, h⟩ := Step.value_bind_eq_some_iff.mp h
  obtain ⟨speaker, hspeaker, h⟩ := Step.value_bind_eq_some_iff.mp h
  obtain ⟨lines, hlines, h⟩ := Step.value_bind_eq_some_iff.mp h
  obtain rfl := Option.some.inj h
  refine ⟨hspeaker, hlines, ?_⟩
  rw [Dialog.compile, Step.bind_of_value rfl, Step.bind_of_value hidentifier,
    Step.bind_of_value hspeaker, Step.bind_of_value hlines, findings_requiredName hidentifier]
  change _ :: ([] ++ (_ ++ (_ ++ []))) = _
  rw [List.append_nil, List.nil_append]

/-- Assumes: a selection window compiles. Its entry is in front of its text. -/
theorem compile_selection_eq {w : Selection} {place : Place} {compiled : SelectionWindow}
    (h : (w.compile place).value = some compiled) :
    (w.body.lines (w.bodyPlace place)).value = some compiled.lines ∧
      (w.compile place).findings = .entered .selectionWindow place.position ::
        (w.body.lines (w.bodyPlace place)).findings := by
  rw [Selection.compile, Step.value_report_bind] at h
  obtain ⟨identifier, hidentifier, h⟩ := Step.value_bind_eq_some_iff.mp h
  obtain ⟨lines, hlines, h⟩ := Step.value_bind_eq_some_iff.mp h
  obtain rfl := Option.some.inj h
  refine ⟨hlines, ?_⟩
  rw [Selection.compile, Step.bind_of_value rfl, Step.bind_of_value hidentifier,
    Step.bind_of_value hlines, findings_requiredName hidentifier]
  change _ :: ([] ++ (_ ++ [])) = _
  rw [List.append_nil, List.nil_append]

theorem nameText?_dialog (w : Dialog) (place : Place) :
    nameText? ⟨place, .dialog w⟩ =
      w.speaker.map (⟨speakerTextPlace (w.speakerPlace place), ·⟩) := rfl

/-- Assumes: a window compiles. It makes all its reports and keeps what is to be kept. -/
theorem compileWindow_accounted {window : Located Syntax.Window} {compiled : Window}
    (h : (compileWindow window).value = some compiled) :
    (compileWindow window).findings = windowReports window ∧ Keeps window compiled := by
  obtain ⟨place, window⟩ := window
  cases window with
  | dialog w =>
    rw [compileWindow, Step.value_map, Option.map_eq_some_iff] at h
    obtain ⟨inner, h, rfl⟩ := h
    obtain ⟨hspeaker, hbody, hfindings⟩ := compile_dialog_eq h
    change (w.compile place).findings = _ ∧ _
    rw [hfindings]
    cases hname : w.speaker with
    | none =>
      have htext : nameText? ⟨place, .dialog w⟩ = none := by rw [nameText?_dialog, hname]; rfl
      have hnone : nameLines ⟨place, .dialog w⟩ = [] := by rw [nameLines, htext]; rfl
      rw [hname] at hspeaker
      have hnobody : none = inner.speaker := Option.some.inj hspeaker
      refine ⟨?_, by simp [htext], by rw [hnone]; exact hnobody.symm, value_lines_elsewhere hbody⟩
      simp only [windowReports, nameReports, extraLines, htext, openings, hname, Option.toList_none,
        List.flatMap_nil, List.map_nil, ite_self, List.append_nil]
      rfl
    | some name =>
      have htext : nameText? ⟨place, .dialog w⟩ =
          some ⟨speakerTextPlace (w.speakerPlace place), name⟩ := by
        rw [nameText?_dialog, hname]; rfl
      rw [hname] at hspeaker
      obtain ⟨named, hnamed, hwho, hreports⟩ := speakerOf_eq hspeaker
      have hlines : nameLines ⟨place, .dialog w⟩ = named := by
        rw [nameLines, htext, Option.bind_some, textLines, hnamed]
        rfl
      refine ⟨?_, ?_, by rw [hlines]; exact hwho, value_lines_elsewhere hbody⟩
      · rw [optionalSpeaker, hreports]
        simp [windowReports, nameReports, extraLines, hasExtraLines, hlines, htext, openings, hname,
          textLines, bodyText]
      · rw [htext, hlines]
        exact fun text htext ↦ Option.some.inj htext ▸ hnamed
  | selection w =>
    rw [compileWindow, Step.value_map, Option.map_eq_some_iff] at h
    obtain ⟨inner, h, rfl⟩ := h
    obtain ⟨hbody, hfindings⟩ := compile_selection_eq h
    have hname : nameText? ⟨place, .selection w⟩ = none := rfl
    exact ⟨hfindings, by simp [hname], rfl, value_lines_elsewhere hbody⟩

/-! ### The warnings of a window -/

/-- Assumes: a text compiles. It has a warning for every empty line, and no other. -/
theorem warningsOf_textLines {text : Located TaggedText} {lines : List Line}
    (h : (textLines text).value = some lines) :
    (warningsOf (textLines text).findings).map Finding.message =
      List.replicate (lines.countP Line.isEmpty) "Empty line" :=
  warnings_lines h

theorem warningsOf_openings (window : Located Syntax.Window) :
    warningsOf (openings window) = [] := by
  unfold openings
  split
  · rename_i w _
    cases w.speaker <;> rfl
  · rfl

/-- A window with several lines of its speaker name has such a name. -/
theorem exists_nameText {window : Located Syntax.Window} (h : hasExtraLines window = true) :
    ∃ text, nameText? window = some text := by
  cases htext : nameText? window with
  | some text => exact ⟨text, rfl⟩
  | none => simp [hasExtraLines, nameLines, htext] at h

theorem extraLines_eq {window : Located Syntax.Window} {text : Located TaggedText}
    (h : hasExtraLines window = true) (htext : nameText? window = some text) :
    extraLines window = [.extraNameLines (nameLines window).length text.place.position] := by
  rw [extraLines, if_pos h, htext]
  rfl

/-- The warning about several lines is none about an empty line, since it is longer. -/
theorem message_extraNameLines_ne (count : Nat) (position : Position) :
    (Finding.extraNameLines count position).message ≠ "Empty line" := by
  intro h
  have hlength : ("Speaker name has " ++ Decimal.ofNat count ++
      " lines; only the first is used").length = "Empty line".length := congrArg String.length h
  simp only [String.length_append] at hlength
  have hshort : "Empty line".length < "Speaker name has ".length := by decide
  omega

/-- Assumes: the texts of a window compile. The messages of its warnings are those about the empty
lines of its name, that about the number of these lines, and those about its own empty lines. -/
theorem warningsOf_windowReports {window : Located Syntax.Window} {compiled : Window}
    (h : Keeps window compiled) :
    ∃ name body, warningsOf (windowReports window) = name ++ extraLines window ++ body ∧
      name.map Finding.message =
        List.replicate ((nameLines window).countP Line.isEmpty) "Empty line" ∧
      body.map Finding.message =
        List.replicate (compiled.lines.countP Line.isEmpty) "Empty line" := by
  have hextra : warningsOf (extraLines window) = extraLines window := by
    refine List.filter_eq_self.mpr fun finding hfinding ↦ ?_
    unfold extraLines at hfinding
    split at hfinding
    · obtain ⟨text, _, rfl⟩ := List.mem_map.mp hfinding
      rfl
    · exact absurd hfinding List.not_mem_nil
  refine ⟨warningsOf (nameReports window), warningsOf (textLines (bodyText window)).findings,
    ?_, ?_, warningsOf_textLines (h.body (bodyText window).place)⟩
  · rw [windowReports, warningsOf_append, warningsOf_append, warningsOf_append,
      warningsOf_openings, hextra, List.nil_append]
  · cases htext : nameText? window with
    | none => simp [nameReports, nameLines, htext, warningsOf]
    | some text =>
      rw [nameReports, htext, Option.toList_some, List.flatMap_singleton]
      exact warningsOf_textLines (h.name text htext)

/-! ### The warnings of a compilation -/

/-- The warning about several lines of a speaker name, as an event. -/
def extraLinesEvent (channel : String) (window : Located Syntax.Window) : Event :=
  ⟨channel, .warning, "Speaker name has " ++ Decimal.ofNat (nameLines window).length ++
    " lines; only the first is used", (nameText? window).map (·.place.position)⟩

/-- The warnings among the events of a compilation are accounted for by the windows of the source
and those of the script. -/
structure WarningsAccounted (channel : String) (windows : List (Located Syntax.Window))
    (script : Script) (events : List Event) : Prop where
  /-- There are as many warnings as empty lines in windows, empty lines in speaker names, kept or
  not, and windows whose speaker name has several lines. -/
  count : (eventsAt .warning events).length =
    (script.windows.flatMap Window.lines).countP Line.isEmpty +
      (windows.flatMap nameLines).countP Line.isEmpty + windows.countP hasExtraLines
  /-- Each of the latter has one warning of its own, and no other warning is like these. -/
  once : (eventsAt .warning events).filter (·.message ≠ "Empty line") =
    (windows.filter hasExtraLines).map (extraLinesEvent channel)
  /-- This warning stands between the events of the name and those of the text of the window. -/
  between : ∀ window ∈ windows, hasExtraLines window → ∃ text ∈ nameText? window,
    ∃ before after, events =
      before ++ (textLines text).findings.map (·.toEvent channel) ++
        [extraLinesEvent channel window] ++
        (textLines (bodyText window)).findings.map (·.toEvent channel) ++ after
  /-- The windows keep what is to be kept. -/
  kept : List.Forall₂ Keeps windows script.windows

/-- Assumes: the texts of windows compile. The number of warnings is the number of their reasons. -/
theorem length_warningsOf {windows : List (Located Syntax.Window)} {compiled : List Window}
    (h : List.Forall₂ Keeps windows compiled) :
    (warningsOf (windows.flatMap windowReports)).length =
      (compiled.flatMap Window.lines).countP Line.isEmpty +
        (windows.flatMap nameLines).countP Line.isEmpty + windows.countP hasExtraLines := by
  induction h with
  | nil => rfl
  | @cons window first rest later hfirst _ ih =>
    obtain ⟨name, body, hwarned, hname, hbody⟩ := warningsOf_windowReports hfirst
    have hnameCount := congrArg List.length hname
    have hbodyCount := congrArg List.length hbody
    rw [List.length_map, List.length_replicate] at hnameCount hbodyCount
    have hextraCount : (extraLines window).length = if hasExtraLines window then 1 else 0 := by
      split_ifs with hextra
      · obtain ⟨text, htext⟩ := exists_nameText hextra
        rw [extraLines_eq hextra htext, List.length_singleton]
      · rw [extraLines, if_neg hextra, List.length_nil]
    rw [List.flatMap_cons, warningsOf_append, hwarned, List.length_append, ih, List.flatMap_cons,
      List.flatMap_cons, List.countP_append, List.countP_append, List.countP_cons,
      List.length_append, List.length_append, hextraCount, hnameCount, hbodyCount]
    omega

/-- Events with the message about an empty line are none of the others. -/
theorem filter_toEvent_eq_nil {findings : List Finding} {n : Nat}
    (h : findings.map Finding.message = List.replicate n "Empty line") (channel : String) :
    (findings.map (·.toEvent channel)).filter (·.message ≠ "Empty line") = [] := by
  refine List.filter_eq_nil_iff.mpr fun event hevent ↦ ?_
  obtain ⟨finding, hfinding, rfl⟩ := List.mem_map.mp hevent
  have hmessage : finding.message ∈ List.replicate n "Empty line" :=
    h ▸ List.mem_map_of_mem hfinding
  simp [Finding.toEvent, List.eq_of_mem_replicate hmessage]

/-- The event about several lines. -/
theorem map_extraLines (channel : String) {window : Located Syntax.Window}
    (h : hasExtraLines window = true) :
    (extraLines window).map (·.toEvent channel) = [extraLinesEvent channel window] := by
  obtain ⟨text, htext⟩ := exists_nameText h
  rw [extraLines_eq h htext, List.map_singleton, extraLinesEvent, htext]
  rfl

/-- The event about several lines is the only one of its window that is not about an empty line. -/
theorem filter_extraLines (channel : String) (window : Located Syntax.Window) :
    ((extraLines window).map (·.toEvent channel)).filter (·.message ≠ "Empty line") =
      if hasExtraLines window then [extraLinesEvent channel window] else [] := by
  split_ifs with hextra
  · rw [map_extraLines channel hextra, List.filter_eq_self]
    intro event hevent
    rw [List.mem_singleton.mp hevent]
    exact decide_eq_true (message_extraNameLines_ne (nameLines window).length .start)
  · rw [extraLines, if_neg hextra]
    rfl

theorem filter_warningsOf {windows : List (Located Syntax.Window)} {compiled : List Window}
    (h : List.Forall₂ Keeps windows compiled) (channel : String) :
    ((warningsOf (windows.flatMap windowReports)).map (·.toEvent channel)).filter
        (·.message ≠ "Empty line") =
      (windows.filter hasExtraLines).map (extraLinesEvent channel) := by
  induction h with
  | nil => rfl
  | @cons window first rest later hfirst _ ih =>
    obtain ⟨name, body, hwarned, hname, hbody⟩ := warningsOf_windowReports hfirst
    rw [List.flatMap_cons, warningsOf_append, List.map_append, List.filter_append, ih, hwarned,
      List.map_append, List.map_append, List.filter_append, List.filter_append,
      filter_toEvent_eq_nil hname, filter_toEvent_eq_nil hbody, filter_extraLines, List.nil_append,
      List.append_nil, List.filter_cons]
    split_ifs <;> rfl

/-- Assumes: the steps of a list have values and known reports. They report one behind another. -/
theorem findings_forEach {α β : Type} {step : α → Step β} {reports : α → List Finding}
    {inputs : List α} {outputs : List β}
    (h : List.Forall₂ (fun input output ↦ (step input).value = some output ∧
      (step input).findings = reports input) inputs outputs) :
    (Step.forEach step inputs).findings = inputs.flatMap reports := by
  induction h with
  | nil => rfl
  | cons hfirst _ ih =>
    rw [Step.forEach, Step.bind_of_value hfirst.1, List.flatMap_cons, hfirst.2, ← ih]
    rfl

/-- Assumes: a document gives a script. Its warnings are accounted for. -/
theorem accounted_script {document : Document} {version : FormatVersion} {script : Script}
    (h : (document.script version).value = some script) (channel : String) :
    WarningsAccounted channel (locate Window.text document.windowsPlace document.windows) script
      ((document.script version).findings.map (·.toEvent channel)) := by
  have hne : document.windows ≠ [] := fun hnil ↦
    (value_script_iff.mp h).ne_nil (by rw [Document.outline, hnil, List.map_nil])
  rw [script_eq hne] at h ⊢
  obtain ⟨compiled, hcompiled, rfl⟩ := Option.map_eq_some_iff.mp h
  have heach := Step.value_forEach_eq_some_iff.mp hcompiled
  rw [findings_forEach (heach.imp fun _ _ hwindow ↦
    ⟨hwindow, (compileWindow_accounted hwindow).1⟩)]
  generalize locate Window.text document.windowsPlace document.windows = windows at heach ⊢
  have hkept : List.Forall₂ Keeps windows compiled :=
    heach.imp fun _ _ hwindow ↦ (compileWindow_accounted hwindow).2
  have hevents : eventsAt .warning ((Finding.entered .compilationUnit .start ::
      windows.flatMap windowReports).map (·.toEvent channel)) =
        (warningsOf (windows.flatMap windowReports)).map (·.toEvent channel) :=
    eventsAt_map .warning channel _
  refine ⟨?_, ?_, fun window hwindow hextra ↦ ?_, hkept⟩
  · rw [hevents, List.length_map]
    exact length_warningsOf hkept
  · rw [hevents]
    exact filter_warningsOf hkept channel
  · obtain ⟨text, htext⟩ := exists_nameText hextra
    obtain ⟨before, after, rfl⟩ := List.append_of_mem hwindow
    have hwindow : (windowReports window).map (·.toEvent channel) =
        (openings window).map (·.toEvent channel) ++
          (textLines text).findings.map (·.toEvent channel) ++ [extraLinesEvent channel window] ++
          (textLines (bodyText window)).findings.map (·.toEvent channel) := by
      rw [windowReports, nameReports, htext, Option.toList_some, List.flatMap_singleton,
        List.map_append, List.map_append, List.map_append, map_extraLines channel hextra]
    refine ⟨text, htext, (Finding.entered .compilationUnit .start ::
      before.flatMap windowReports).map (·.toEvent channel) ++
        (openings window).map (·.toEvent channel),
      (after.flatMap windowReports).map (·.toEvent channel), ?_⟩
    rw [List.flatMap_append, List.flatMap_cons, ← List.cons_append, List.map_append,
      List.map_append, hwindow]
    simp only [List.append_assoc]

/-- A source that compiles is read as a tree. -/
theorem exists_parses_of_tryCompile {version : FormatVersion} {source : Source} {script : Script}
    (h : (tryCompile version source).value = some script) :
    ∃ document, source.Parses document := by
  have htext : ∀ text, (compileText version text).value = some script →
      ∃ document, Source.Parses (.text text) document := by
    intro text hvalue
    obtain ⟨document, hparse, _⟩ := exists_parse_of_compileText hvalue
    exact ⟨document, .text hparse⟩
  have hbytes : ∀ bytes, (compileBytes version bytes).value = some script →
      ∃ document, Source.Parses (.bytes bytes) document := by
    intro bytes hvalue
    unfold compileBytes at hvalue
    split at hvalue
    · rename_i text hdecode
      obtain ⟨document, hparses⟩ := htext text hvalue
      exact ⟨document, .bytes hdecode hparses⟩
    · exact absurd hvalue (by simp [giveUp])
  cases source with
  | text text => exact htext text h
  | bytes bytes => exact hbytes bytes h
  | reader reads =>
    rw [tryCompile] at h
    split at h
    · rename_i bytes hread
      obtain ⟨document, hparses⟩ := hbytes bytes h
      exact ⟨document, .reader hread hparses⟩
    · exact absurd h (by simp [giveUp])

/-- Assumes: a source compiles. It is read as a tree, and whatever recorder listens to the compiler,
the warnings that it holds after either form of compiling the source are accounted for. -/
theorem warnings_accounted (options : Options) (recorder : String) {source : Source}
    {script : Script} (h : (compile options.formatVersion source).result = .ok script) :
    ∃ document, source.Parses document ∧
      WarningsAccounted options.channel
        (locate Window.text document.windowsPlace document.windows) script
        (((Session.recording options recorder).act (.tryCompile source)).2.recorded recorder) ∧
      WarningsAccounted options.channel
        (locate Window.text document.windowsPlace document.windows) script
        (((Session.recording options recorder).act (.compile source)).2.recorded recorder) := by
  have hvalue := result_compile_eq_ok_iff.mp h
  obtain ⟨document, hparses⟩ := exists_parses_of_tryCompile hvalue
  obtain ⟨text, hparse, hforms⟩ := hparses.exists_text
  obtain ⟨htry, hcompile⟩ := hforms options.formatVersion
  rw [htry, value_compileText_of_parse hparse] at hvalue
  have haccounted := accounted_script hvalue options.channel
  rw [← compileText_eq_script hparse hvalue] at haccounted
  rw [Session.act_tryCompile_recording, Session.act_compile_recording,
    Session.recorded_emitAll_recording, Session.recorded_emitAll_recording, htry, hcompile]
  exact ⟨document, hparses, haccounted, haccounted⟩

/-- Of three lines of the first name the second is empty, and of two lines of the second name the
first, which is kept. There is an empty line in the text of the first window and one in the choices.
-/
theorem warnings_accounted_discarded :
    ∃ source script,
      source = Source.text "[dlg a [b<e><e>c]]x<e><e>\n[sel s]<e>y[dlg c [<e>d]]z".toList ∧
      (compile .v1 source).result = .ok script ∧
      (∃ document, source.Parses document ∧
        WarningsAccounted "script" (locate Window.text document.windowsPlace document.windows)
          script (((Session.recording ⟨.v1, "script"⟩ "log").act
            (.tryCompile source)).2.recorded "log") ∧
        WarningsAccounted "script" (locate Window.text document.windowsPlace document.windows)
          script (((Session.recording ⟨.v1, "script"⟩ "log").act
            (.compile source)).2.recorded "log")) ∧
      script.windows = [.dialog ⟨"a", some (.named ⟨[.text "b"]⟩), [⟨[.text "x"]⟩, ⟨[]⟩]⟩,
        .selection ⟨"s", [⟨[]⟩, ⟨[.text "y"]⟩]⟩,
        .dialog ⟨"c", some (.named ⟨[]⟩), [⟨[.text "z"]⟩]⟩] ∧
      warningsOf (compile .v1 source).findings = [.emptyLine ⟨1, 13⟩, .extraNameLines 3 ⟨1, 9⟩,
        .emptyLine ⟨1, 23⟩, .emptyLine ⟨2, 8⟩, .emptyLine ⟨2, 20⟩, .extraNameLines 2 ⟨2, 20⟩] := by
  have hresult : (compile .v1
      (.text "[dlg a [b<e><e>c]]x<e><e>\n[sel s]<e>y[dlg c [<e>d]]z".toList)).result =
        .ok ⟨.v1, [.dialog ⟨"a", some (.named ⟨[.text "b"]⟩), [⟨[.text "x"]⟩, ⟨[]⟩]⟩,
          .selection ⟨"s", [⟨[]⟩, ⟨[.text "y"]⟩]⟩,
          .dialog ⟨"c", some (.named ⟨[]⟩), [⟨[.text "z"]⟩]⟩]⟩ := by cbv
  exact ⟨_, _, rfl, hresult, warnings_accounted ⟨.v1, "script"⟩ "log" hresult, rfl, by cbv⟩

end DialogueScript
