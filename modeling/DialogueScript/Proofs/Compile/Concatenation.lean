import DialogueScript.Options.Basic
import DialogueScript.Proofs.Compile.Moved
import DialogueScript.Proofs.Syntax.Concatenation
import DialogueScript.Proofs.Text.Position

/-!
# Windows compile independently

Behind a source that compiles, a source that begins with a bracket compiles exactly if it compiles
by itself, and to the same windows (`compile_append`). Nothing that the first source holds reaches
the windows of the second. What is reported of them is reported at other positions, moved by the end
of the first source.
-/

set_option autoImplicit false
set_option relaxedAutoImplicit false

namespace DialogueScript

open Syntax

/-! ### Lists of steps -/

/-- Assumes: the steps of a list have values. More steps behind them add their findings and their
values. -/
theorem Step.forEach_append {α β : Type} {step : α → Step β} {first second : List α}
    {outputs : List β} (h : (forEach step first).value = some outputs) :
    forEach step (first ++ second) =
      ⟨(forEach step first).findings ++ (forEach step second).findings,
        (forEach step second).value.map (outputs ++ ·)⟩ := by
  induction first generalizing outputs with
  | nil =>
    obtain rfl := Option.some.inj h
    rw [List.nil_append]
    change forEach step second =
      ⟨[] ++ (forEach step second).findings, (forEach step second).value.map id⟩
    rw [List.nil_append, Option.map_id]
    rfl
  | cons input rest ih =>
    obtain ⟨output, houtput, hmap⟩ := value_bind_eq_some_iff.mp h
    rw [value_map, Option.map_eq_some_iff] at hmap
    obtain ⟨later, hlater, rfl⟩ := hmap
    rw [List.cons_append, forEach, forEach, bind_of_value houtput, bind_of_value houtput, ih hlater]
    change Step.mk ((step input).findings ++
        ((forEach step rest).findings ++ (forEach step second).findings))
      (((forEach step second).value.map (later ++ ·)).map (output :: ·)) =
        ⟨(step input).findings ++ (forEach step rest).findings ++ (forEach step second).findings, _⟩
    rw [Option.map_map, List.append_assoc]
    rfl

/-! ### Documents -/

/-- Assumes: a document with windows. It reports that it is entered, and then what its windows
report. -/
theorem script_eq {document : Document} (hne : document.windows ≠ []) (version : FormatVersion) :
    document.script version =
      ⟨.entered .compilationUnit .start ::
          (Step.forEach compileWindow
            (locate Window.text document.windowsPlace document.windows)).findings,
        (Step.forEach compileWindow
          (locate Window.text document.windowsPlace document.windows)).value.map
            (Script.mk version)⟩ := by
  obtain ⟨window, rest, hcons⟩ := List.exists_cons_of_ne_nil hne
  unfold Document.script
  rw [hcons]
  rfl

/-- Assumes: a document that gives a script, and a second one of windows only. Joined they report
what the first reports and what the second reports behind its entry, moved to the end of the first,
and they give the windows of both. -/
theorem script_join {first second : Document} {version : FormatVersion} {script : Script}
    (hfirst : (first.script version).value = some script) (hblanks : second.blanks = [])
    (hne : second.windows ≠ []) :
    (first.join second).script version =
      ⟨(first.script version).findings ++ ((second.script version).findings.tail.map
          (Finding.moved (Position.start.after first.text))),
        (second.script version).value.map
          fun later ↦ ⟨version, script.windows ++ later.windows⟩⟩ := by
  have hfirstNe : first.windows ≠ [] := fun hnil ↦
    (value_script_iff.mp hfirst).ne_nil (by rw [Document.outline, hnil, List.map_nil])
  have hjoinNe : (first.join second).windows ≠ [] := by
    simp [Document.join, hne]
  have hplace : first.windowsPlace.after (first.windows.flatMap Window.text) =
      Place.start.after first.text := by
    rw [Document.windowsPlace, ← Place.after_append, Document.text]
  have hsecondPlace : second.windowsPlace = .start := by
    rw [Document.windowsPlace, hblanks, Place.after_nil]
  rw [script_eq hfirstNe] at hfirst ⊢
  obtain ⟨windows, hwindows, rfl⟩ := Option.map_eq_some_iff.mp hfirst
  rw [script_eq hjoinNe, script_eq hne, hsecondPlace]
  have hlocate : locate Window.text (first.join second).windowsPlace (first.join second).windows =
      locate Window.text first.windowsPlace first.windows ++
        locate Window.text (Place.start.after first.text) second.windows := by
    rw [← hplace, ← locate_append]
    rfl
  rw [hlocate, Step.forEach_append hwindows, moved_windows second.windows]
  simp only [Step.moved, Option.map_map, Function.comp_def, List.cons_append, List.tail_cons]
  rfl

/-! ### Sources -/

/-- Assumes: the second of two sources begins with a bracket. A mark of byte order in front of both
is one in front of the first. -/
theorem dropMark_append (source : List Char) {later : List Char} (hopen : later.head? = some '[') :
    Utf8.dropMark (source ++ later) = Utf8.dropMark source ++ later := by
  cases source with
  | cons c rest =>
    rw [List.cons_append, Utf8.dropMark, Utf8.dropMark]
    split_ifs
    · rfl
    · rfl
  | nil =>
    obtain ⟨rest, rfl⟩ := List.head?_eq_some_iff.mp hopen
    rfl

/-- A source that begins with a bracket begins with no mark of byte order. -/
theorem dropMark_of_head {text : List Char} (hopen : text.head? = some '[') :
    Utf8.dropMark text = text :=
  dropMark_append [] hopen

/-- Assumes: a source that begins with a bracket is read. Its tree has windows only. -/
theorem windows_of_head {source : List Char} {document : Document}
    (hparse : parse source = .ok document) (hopen : source.head? = some '[') :
    document.blanks = [] ∧ document.windows ≠ [] := by
  obtain ⟨hspelled, rfl⟩ := spelled_of_parse hparse
  have hblanks := blanks_eq_nil_of_head hspelled.1 hopen
  refine ⟨hblanks, fun hwindows ↦ ?_⟩
  rw [Document.text, hblanks, hwindows] at hopen
  exact absurd hopen (by simp)

/-- Assumes: a source that is read behind a source that compiles. Their trees are joined. -/
theorem compileText_join {version : FormatVersion} {source later : List Char} {script : Script}
    (hsource : (compileText version source).value = some script) (hopen : later.head? = some '[')
    {second : Document} (hsecond : parse (Utf8.dropMark later) = .ok second) :
    ∃ first : Document, parse (Utf8.dropMark (source ++ later)) = .ok (first.join second) ∧
      compileText version source = first.script version ∧
      (first.join second).script version =
        ⟨(compileText version source).findings ++ ((second.script version).findings.tail.map
            (Finding.moved (Position.start.after (Utf8.dropMark source)))),
          (second.script version).value.map
            fun later ↦ ⟨version, script.windows ++ later.windows⟩⟩ := by
  obtain ⟨first, hparse, hvalue⟩ := exists_parse_of_compileText hsource
  rw [dropMark_of_head hopen] at hsecond
  obtain ⟨hblanks, hne⟩ := windows_of_head hsecond hopen
  have hcompile := compileText_eq_script hparse hvalue
  refine ⟨first, ?_, hcompile, ?_⟩
  · rw [dropMark_append source hopen]
    exact (parse_append_iff hparse hopen).mpr ⟨second, hsecond, rfl⟩
  · rw [script_join hvalue hblanks hne, hcompile, (spelled_of_parse hparse).2]

/-- Behind a source that compiles, a source that begins with a bracket has the value that it has by
itself, behind the windows that are already there. -/
theorem value_compileText_append {version : FormatVersion} {source later : List Char}
    {script : Script} (hsource : (compileText version source).value = some script)
    (hopen : later.head? = some '[') :
    (compileText version (source ++ later)).value =
      (compileText version later).value.map
        fun second ↦ ⟨version, script.windows ++ second.windows⟩ := by
  cases hparse : parse (Utf8.dropMark later) with
  | ok second =>
    obtain ⟨first, hjoined, _, hscript⟩ := compileText_join hsource hopen hparse
    rw [value_compileText_of_parse hjoined, value_compileText_of_parse hparse, hscript]
  | error error =>
    -- the second source is not read behind the first either
    have hlater : (compileText version later).value = none := by
      unfold compileText
      rw [hparse]
      rfl
    rw [hlater, Option.map_none]
    refine Option.eq_none_iff_forall_ne_some.mpr fun joined hjoined ↦ ?_
    obtain ⟨document, hdocument, _⟩ := exists_parse_of_compileText hjoined
    obtain ⟨first, hfirst, _⟩ := exists_parse_of_compileText hsource
    rw [dropMark_append source hopen] at hdocument
    obtain ⟨second, hsecond, _⟩ := (parse_append_iff hfirst hopen).mp hdocument
    rw [dropMark_of_head hopen, hsecond] at hparse
    exact absurd hparse (by simp)

/-- Behind a source that compiles, a source that begins with a bracket and compiles reports what it
reports by itself, without its entry and moved to the end of the first source. -/
theorem findings_compileText_append {version : FormatVersion} {source later : List Char}
    {script second : Script} (hsource : (compileText version source).value = some script)
    (hopen : later.head? = some '[') (hlater : (compileText version later).value = some second) :
    ∃ reports, (compileText version later).findings =
        .entered .compilationUnit .start :: reports ∧
      (compileText version (source ++ later)).findings =
        (compileText version source).findings ++
          reports.map (Finding.moved (Position.start.after (Utf8.dropMark source))) := by
  obtain ⟨document, hparse, hvalue⟩ := exists_parse_of_compileText hlater
  obtain ⟨first, hjoined, _, hscript⟩ := compileText_join hsource hopen hparse
  have hjoinedValue := congrArg Step.value hscript
  rw [hvalue, Option.map_some] at hjoinedValue
  have hne : document.windows ≠ [] :=
    (windows_of_head (dropMark_of_head hopen ▸ hparse) hopen).2
  rw [compileText_eq_script hparse hvalue, compileText_eq_script hjoined hjoinedValue, hscript,
    script_eq hne]
  exact ⟨_, rfl, rfl⟩

/-- Assumes: a source that compiles, and one that begins with a bracket. Both one behind the other
compile exactly if the second compiles. Then their windows are those of the first and those of the
second, and their events are those of the first and those of the second without its entry, moved by
the position at the end of the first. -/
theorem compile_append (options : Options) {source later : List Char} {first : Script}
    (hsource : (compile options.formatVersion (.text source)).result = .ok first)
    (hopen : later.head? = some '[') :
    ((∃ joined, (compile options.formatVersion (.text (source ++ later))).result = .ok joined) ↔
        ∃ second, (compile options.formatVersion (.text later)).result = .ok second) ∧
      ∀ second, (compile options.formatVersion (.text later)).result = .ok second →
        (compile options.formatVersion (.text (source ++ later))).result =
            .ok ⟨options.formatVersion, first.windows ++ second.windows⟩ ∧
        ∃ reports : List Finding,
          (compile options.formatVersion (.text later)).findings.map (·.toEvent options.channel) =
              (Finding.entered .compilationUnit .start).toEvent options.channel ::
                reports.map (·.toEvent options.channel) ∧
          (compile options.formatVersion (.text (source ++ later))).findings.map
              (·.toEvent options.channel) =
            (compile options.formatVersion (.text source)).findings.map
                (·.toEvent options.channel) ++
              (reports.map (Finding.moved (Position.start.after (Utf8.dropMark source)))).map
                (·.toEvent options.channel) := by
  simp only [compile, Step.result_conclude_eq_ok_iff] at hsource ⊢
  have hvalue := value_compileText_append hsource hopen
  constructor
  · rw [hvalue]
    simp
  · intro second hsecond
    obtain ⟨reports, hlater, hboth⟩ := findings_compileText_append hsource hopen hsecond
    rw [hvalue, hsecond]
    refine ⟨rfl, reports, ?_, ?_⟩
    · rw [Step.conclude, hlater, List.map_cons]
    · rw [Step.conclude, hboth, List.map_append]
      rfl

/-- The first source begins with a mark of byte order and ends in its second line. What the second
source reports of its first line moves to the right as well, the rest only down. -/
theorem compile_append_mark :
    (compile .v1 (.text ("\ufeff[sel a]x\ny".toList ++ "[dlg b]\n<e>".toList))).result =
        .ok ⟨.v1, [.selection ⟨"a", [⟨[.text "xy"]⟩]⟩, .dialog ⟨"b", none, [⟨[]⟩]⟩]⟩ ∧
      Position.start.after (Utf8.dropMark "\ufeff[sel a]x\ny".toList) = ⟨2, 2⟩ ∧
      (compile .v1 (.text "[dlg b]\n<e>".toList)).findings.map Finding.position =
        [some ⟨1, 1⟩, some ⟨1, 1⟩, some ⟨1, 8⟩, some ⟨2, 1⟩] ∧
      (compile .v1 (.text ("\ufeff[sel a]x\ny".toList ++ "[dlg b]\n<e>".toList))).findings.map
          Finding.position =
        [some ⟨1, 1⟩, some ⟨1, 1⟩, some ⟨1, 8⟩, some ⟨2, 2⟩, some ⟨2, 9⟩, some ⟨3, 1⟩] := by
  have hsource : (compile .v1 (.text "\ufeff[sel a]x\ny".toList)).result =
      .ok ⟨.v1, [.selection ⟨"a", [⟨[.text "xy"]⟩]⟩]⟩ := by cbv
  have hlater : (compile .v1 (.text "[dlg b]\n<e>".toList)).result =
      .ok ⟨.v1, [.dialog ⟨"b", none, [⟨[]⟩]⟩]⟩ := by cbv
  have hopen : "[dlg b]\n<e>".toList.head? = some '[' := rfl
  have happend := compile_append ⟨.v1, "script"⟩ hsource hopen
  exact ⟨(happend.2 _ hlater).1, by cbv, by cbv, by cbv⟩

end DialogueScript
