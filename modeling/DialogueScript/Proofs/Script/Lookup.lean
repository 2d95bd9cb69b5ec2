import DialogueScript.Script.Problem
import Mathlib

/-!
# Problems and lookups

A check of a script goes through its windows once and keeps the identifiers that it has seen, and a
lookup searches the windows for the first with an identifier. The two agree: an identifier that is
not blank is reported as a duplicate exactly at those windows that a lookup of it does not find
(`windowProblems_eq`). The invariant of the check is that it has seen the identifiers of the windows
in front that are not blank (`Seen`).

`Script.report` says window by window what is to be reported, by lookups and without a state, and
`problems_exact` proves that the check reports this. A script without problems is one in which every
window is found under its identifier.
-/

set_option autoImplicit false
set_option relaxedAutoImplicit false

namespace DialogueScript

/-! ### What is to be reported -/

/-- An identifier has no character that is not white space. -/
def OnlyWhiteSpace (identifier : String) : Prop :=
  ∀ c ∈ identifier.toList, Text.isWhiteSpace c = true

/-- A line has a text in which there is a line feed. -/
def Line.BreaksText (line : Line) : Prop :=
  ∃ content, Token.text content ∈ line.tokens ∧ '\n' ∈ content.toList

instance (identifier : String) : Decidable (OnlyWhiteSpace identifier) :=
  decidable_of_iff (identifier.toList.all Text.isWhiteSpace = true) List.all_eq_true

theorem Line.hasNewline_iff {line : Line} : line.hasNewline = true ↔ line.BreaksText := by
  rw [hasNewline, List.any_eq_true, BreaksText]
  constructor
  · rintro ⟨token, htoken, hfeed⟩
    cases token with
    | text content => exact ⟨content, htoken, by simpa [Token.hasNewline] using hfeed⟩
    | newLine => exact absurd hfeed Bool.false_ne_true
    | function table index arguments => exact absurd hfeed Bool.false_ne_true
  · rintro ⟨content, hcontent, hfeed⟩
    exact ⟨_, hcontent, by simpa [Token.hasNewline] using hfeed⟩

instance (line : Line) : Decidable line.BreaksText :=
  decidable_of_iff _ Line.hasNewline_iff

namespace Window

/-- What is to be reported about the name line of a window: that it breaks a text, if the window is
a dialog with a named speaker. It has the number zero. -/
def nameReport : Window → List Problem
  | .dialog ⟨identifier, some (.named line), _⟩ =>
    if line.BreaksText then [.embeddedNewline identifier 0] else []
  | _ => []

/-- What is to be reported about the lines of the body of a window, which are numbered from one. -/
def bodyReport (window : Window) : List Problem :=
  (window.lines.zipIdx.filter fun (line, _) ↦ line.BreaksText).map fun (_, n) ↦
    .embeddedNewline window.identifier (n + 1)

end Window

namespace Script

/-- What is to be reported about the identifier of the window at an index: that it is blank, or else
that a lookup of it leads to another window. -/
def identifierReport (script : Script) (window : Window) (index : Nat) : List Problem :=
  if OnlyWhiteSpace window.identifier then [.emptyIdentifier index]
  else if script.windowIndex? window.identifier = some index then []
  else [.duplicateIdentifier window.identifier]

/-- What is to be reported about the window at an index: its identifier first, then its name line,
then the lines of its body in order. -/
def windowReport (script : Script) (window : Window) (index : Nat) : List Problem :=
  script.identifierReport window index ++ (window.nameReport ++ window.bodyReport)

/-- What is to be reported about a script: that it has no windows, and what there is to report about
each window in turn. -/
def report (script : Script) : List Problem :=
  (if script.windows = [] then [.noWindows] else []) ++
    script.windows.zipIdx.flatMap fun (window, index) ↦ script.windowReport window index

end Script

/-! ### Blank identifiers and lines -/

/-- Trimming leaves nothing exactly of a text of white space. -/
theorem trim_eq_nil_iff {text : List Char} :
    Text.trim text = [] ↔ ∀ c ∈ text, Text.isWhiteSpace c = true := by
  rw [Text.trim, List.reverse_eq_nil_iff, List.dropWhile_eq_nil_iff]
  constructor
  · intro h
    rw [← List.dropWhile_eq_nil_iff]
    by_contra hne
    have hhead := h _ (List.mem_reverse.mpr (List.head_mem hne))
    rw [List.head_dropWhile_not Text.isWhiteSpace hne] at hhead
    exact Bool.false_ne_true hhead
  · intro h c hc
    exact h c ((List.dropWhile_sublist _).subset (List.mem_reverse.mp hc))

theorem isBlankIdentifier_iff {identifier : String} :
    isBlankIdentifier identifier = true ↔ OnlyWhiteSpace identifier := by
  rw [isBlankIdentifier, List.isEmpty_iff, trim_eq_nil_iff, OnlyWhiteSpace]

/-- The lines that break a text are reported, each under its number. -/
theorem lineProblems_eq (identifier : String) (number : Nat) (lines : List Line) :
    lineProblems identifier number lines =
      ((lines.zipIdx number).filter fun (line, _) ↦ line.BreaksText).map fun (_, n) ↦
        .embeddedNewline identifier n := by
  induction lines generalizing number with
  | nil => rfl
  | cons line rest ih =>
    rw [lineProblems, ih, List.zipIdx_cons, List.filter_cons]
    simp only [Line.hasNewline_iff, decide_eq_true_eq]
    split_ifs <;> rfl

theorem linesProblems_eq (window : Window) :
    window.linesProblems = window.nameReport ++ window.bodyReport := by
  have hbody : lineProblems window.identifier 1 window.lines = window.bodyReport := by
    have hshift : window.lines.zipIdx 1 = window.lines.zipIdx.map (Prod.map id (· + 1)) :=
      List.zipIdx_succ
    rw [lineProblems_eq, Window.bodyReport, hshift, List.filter_map, List.map_map]
    rfl
  have hname : lineProblems window.identifier 0 window.nameLine?.toList = window.nameReport := by
    rw [lineProblems_eq]
    cases window with
    | selection w => rfl
    | dialog w =>
      obtain ⟨identifier, speaker, lines⟩ := w
      match speaker with
      | none => rfl
      | some .variablyNamed => rfl
      | some (.named line) =>
        by_cases hbreaks : line.BreaksText <;>
          simp [Window.nameReport, Window.nameLine?, Window.identifier, hbreaks]
  rw [Window.linesProblems, hname, hbody]

/-! ### Identifiers -/

/-- Behind some windows a check has seen those of their identifiers that are not blank. -/
def Seen (front : List Window) (seen : List String) : Prop :=
  ∀ identifier, ¬OnlyWhiteSpace identifier →
    (identifier ∈ seen ↔ identifier ∈ front.map Window.identifier)

/-- Remembering a window keeps the invariant. -/
theorem Seen.remember {front : List Window} {seen : List String} (h : Seen front seen)
    (window : Window) : Seen (front ++ [window]) (window.remember seen) := by
  intro identifier hfilled
  have hfront := h identifier hfilled
  rw [Window.remember, List.map_append, List.mem_append, List.map_singleton, List.mem_singleton]
  split_ifs with hblank
  · have hne : identifier ≠ window.identifier := by
      rintro rfl
      exact hfilled (isBlankIdentifier_iff.mp hblank)
    rw [hfront]
    exact (or_iff_left hne).symm
  · rw [List.mem_cons, hfront]
    exact or_comm

section Position

variable (version : FormatVersion) (front : List Window) (window : Window) (later : List Window)

/-- A lookup of the identifier of a window finds the window unless one in front has the same
identifier. -/
theorem windowIndex?_eq_length_iff :
    Script.windowIndex? ⟨version, front ++ window :: later⟩ window.identifier =
        some front.length ↔
      window.identifier ∉ front.map Window.identifier := by
  rw [Script.windowIndex?, List.findIdx?_append]
  by_cases hmem : window.identifier ∈ front.map Window.identifier
  · obtain ⟨earlier, hearlier, heq⟩ := List.mem_map.mp hmem
    have hfound : (front.findIdx? (·.identifier = window.identifier)).isSome := by
      rw [List.findIdx?_isSome, List.any_eq_true]
      exact ⟨earlier, hearlier, decide_eq_true heq⟩
    obtain ⟨i, hi⟩ := Option.isSome_iff_exists.mp hfound
    have hlt : i < front.length := (List.findIdx?_eq_some_iff_getElem.mp hi).1
    rw [hi, Option.some_or, Option.some.injEq]
    exact iff_of_false hlt.ne (not_not.mpr hmem)
  · have hnone : front.findIdx? (·.identifier = window.identifier) = none :=
      List.findIdx?_eq_none_iff.mpr fun earlier hearlier ↦
        decide_eq_false fun heq ↦ hmem (List.mem_map.mpr ⟨earlier, hearlier, heq⟩)
    rw [hnone, Option.none_or, List.findIdx?_cons]
    simpa using hmem

/-- Assumes: a check has seen the windows in front of a window. It reports about the identifier of
the window what is to be reported. -/
theorem identifierProblems_eq {seen : List String} (h : Seen front seen) :
    window.identifierProblems front.length seen =
      Script.identifierReport ⟨version, front ++ window :: later⟩ window front.length := by
  rw [Window.identifierProblems, Script.identifierReport]
  simp only [isBlankIdentifier_iff, windowIndex?_eq_length_iff]
  by_cases hblank : OnlyWhiteSpace window.identifier
  · rw [if_pos hblank, if_pos hblank]
  · rw [if_neg hblank, if_neg hblank, ite_not]
    simp only [h window.identifier hblank]

end Position

/-- Assumes: a check has seen the windows in front of others. It reports about the others what is to
be reported. The induction is on the windows to come. -/
theorem windowProblems_eq (version : FormatVersion) (rest : List Window) {front : List Window}
    {seen : List String} (h : Seen front seen) :
    windowProblems front.length seen rest =
      (rest.zipIdx front.length).flatMap fun (window, index) ↦
        Script.windowReport ⟨version, front ++ rest⟩ window index := by
  induction rest generalizing front seen with
  | nil => rfl
  | cons window later ih =>
    have hlater := ih (h.remember window)
    rw [List.append_assoc, List.singleton_append, List.length_append, List.length_singleton]
      at hlater
    rw [windowProblems, List.zipIdx_cons, List.flatMap_cons, ← hlater, linesProblems_eq,
      identifierProblems_eq version front window later h]
    dsimp only
    rw [Script.windowReport]

/-- A check reports what is to be reported. -/
theorem problems_eq_report (script : Script) : script.problems = script.report := by
  have hnone : Seen [] [] := fun _ _ ↦ Iff.rfl
  have hwindows := windowProblems_eq script.formatVersion script.windows hnone
  rw [Script.problems, Script.report, ← List.length_nil, hwindows]
  simp only [List.isEmpty_iff]
  rfl

/-! ### Single problems -/

/-- What is reported about the lines of a window are line feeds. -/
theorem exists_eq_embeddedNewline {window : Window} {problem : Problem}
    (h : problem ∈ window.nameReport ++ window.bodyReport) :
    ∃ number, problem = .embeddedNewline window.identifier number := by
  rcases List.mem_append.mp h with hname | hbody
  · unfold Window.nameReport at hname
    split at hname
    · split_ifs at hname
      · exact ⟨0, List.mem_singleton.mp hname⟩
      · exact absurd hname List.not_mem_nil
    · exact absurd hname List.not_mem_nil
  · obtain ⟨⟨_, n⟩, _, hproblem⟩ := List.mem_map.mp hbody
    exact ⟨n + 1, hproblem.symm⟩

/-- Assumes: each element contributes a value once, or not at all. The value is counted as often as
there are elements that contribute it. -/
theorem count_flatMap_eq_countP {α β : Type} [DecidableEq β] {list : List α} {f : α → List β}
    {b : β} {p : α → Bool} (h : ∀ a, (f a).count b = if p a then 1 else 0) :
    (list.flatMap f).count b = list.countP p := by
  induction list with
  | nil => rfl
  | cons a rest ih => rw [List.flatMap_cons, List.count_append, ih, h, List.countP_cons, add_comm]

namespace Script

variable {script : Script} {window : Window} {problem : Problem} {index n : Nat}
  {identifier : String}

/-- A lookup gives the window at the index that it leads to. -/
theorem window?_eq_bind (script : Script) (identifier : String) :
    script.window? identifier =
      (script.windowIndex? identifier).bind (script.windows[·]?) := by
  cases hindex : script.windowIndex? identifier with
  | none =>
    rw [Option.bind_none, window?, List.find?_eq_none]
    intro window hwindow
    have hne := List.findIdx?_eq_none_iff.mp hindex window hwindow
    simpa using hne
  | some i =>
    obtain ⟨hi, heq, hbefore⟩ := List.findIdx?_eq_some_iff_getElem.mp hindex
    rw [Option.bind_some, List.getElem?_eq_getElem hi, window?,
      List.find?_eq_some_iff_getElem]
    exact ⟨heq, i, hi, rfl, fun j hj ↦ by simpa using hbefore j hj⟩

/-- What is reported about a window: that its identifier is blank, that a lookup of it leads to
another window, or a line feed. -/
theorem mem_windowReport (h : problem ∈ script.windowReport window index) :
    (OnlyWhiteSpace window.identifier ∧ problem = .emptyIdentifier index) ∨
      (script.windowIndex? window.identifier ≠ some index ∧
        problem = .duplicateIdentifier window.identifier) ∨
      ∃ number, problem = .embeddedNewline window.identifier number := by
  rcases List.mem_append.mp h with hidentifier | hlines
  · unfold identifierReport at hidentifier
    split_ifs at hidentifier with hblank hfound
    · exact .inl ⟨hblank, List.mem_singleton.mp hidentifier⟩
    · exact absurd hidentifier List.not_mem_nil
    · exact .inr (.inl ⟨hfound, List.mem_singleton.mp hidentifier⟩)
  · exact .inr (.inr (exists_eq_embeddedNewline hlines))

theorem mem_report_iff :
    problem ∈ script.report ↔ (script.windows = [] ∧ problem = .noWindows) ∨
      ∃ window index, script.windows[index]? = some window ∧
        problem ∈ script.windowReport window index := by
  have hnone : problem ∈ (if script.windows = [] then [Problem.noWindows] else []) ↔
      script.windows = [] ∧ problem = .noWindows := by
    split_ifs with h <;> simp [h]
  rw [report, List.mem_append, hnone, List.mem_flatMap]
  simp only [Prod.exists, List.mk_mem_zipIdx_iff_getElem?]

theorem noWindows_mem_report_iff : .noWindows ∈ script.report ↔ script.windows = [] := by
  rw [mem_report_iff, or_iff_left, and_iff_left rfl]
  rintro ⟨window, index, _, h⟩
  rcases mem_windowReport h with ⟨_, h⟩ | ⟨_, h⟩ | ⟨_, h⟩ <;> exact Problem.noConfusion h

theorem emptyIdentifier_mem_report_iff :
    .emptyIdentifier index ∈ script.report ↔
      ∃ window, script.windows[index]? = some window ∧ OnlyWhiteSpace window.identifier := by
  rw [mem_report_iff]
  constructor
  · rintro (⟨_, h⟩ | ⟨window, i, hwindow, h⟩)
    · exact Problem.noConfusion h
    · rcases mem_windowReport h with ⟨hblank, h⟩ | ⟨_, h⟩ | ⟨_, h⟩
      · obtain rfl := Problem.emptyIdentifier.inj h
        exact ⟨window, hwindow, hblank⟩
      · exact Problem.noConfusion h
      · exact Problem.noConfusion h
  · rintro ⟨window, hwindow, hblank⟩
    refine .inr ⟨window, index, hwindow, List.mem_append_left _ ?_⟩
    rw [identifierReport, if_pos hblank]
    exact List.mem_singleton_self _

/-- Among what is reported about a window, a duplicate of an identifier that is not blank occurs
once if the window has the identifier and a lookup leads to another window. -/
theorem count_duplicateIdentifier_windowReport (h : ¬OnlyWhiteSpace identifier) :
    (script.windowReport window index).count (.duplicateIdentifier identifier) =
      if window.identifier = identifier ∧ script.windowIndex? identifier ≠ some index then 1
      else 0 := by
  by_cases hreported : window.identifier = identifier ∧
      script.windowIndex? identifier ≠ some index
  · obtain ⟨rfl, hother⟩ := hreported
    have hlines : (window.nameReport ++ window.bodyReport).count
        (.duplicateIdentifier window.identifier) = 0 := by
      rw [List.count_eq_zero]
      intro hmem
      obtain ⟨number, hnumber⟩ := exists_eq_embeddedNewline hmem
      exact Problem.noConfusion hnumber
    rw [if_pos ⟨rfl, hother⟩, windowReport, List.count_append, hlines, identifierReport, if_neg h,
      if_neg hother, List.count_singleton_self]
  · rw [if_neg hreported, List.count_eq_zero]
    intro hmem
    rcases mem_windowReport hmem with ⟨_, h⟩ | ⟨hother, h⟩ | ⟨_, h⟩
    · exact Problem.noConfusion h
    · obtain rfl := Problem.duplicateIdentifier.inj h
      exact hreported ⟨rfl, hother⟩
    · exact Problem.noConfusion h

theorem count_duplicateIdentifier_report (h : ¬OnlyWhiteSpace identifier) :
    script.report.count (.duplicateIdentifier identifier) =
      script.windows.zipIdx.countP fun (window, index) ↦
        window.identifier = identifier ∧ script.windowIndex? identifier ≠ some index := by
  have hnone : (if script.windows = [] then [Problem.noWindows] else []).count
      (.duplicateIdentifier identifier) = 0 := by
    split_ifs <;> simp
  rw [report, List.count_append, hnone, zero_add]
  refine count_flatMap_eq_countP fun (window, index) ↦ ?_
  rw [count_duplicateIdentifier_windowReport h]
  simp only [decide_eq_true_eq]

/-- Assumes: nothing is to be reported about a script. A lookup of the identifier of a window leads
to this window. -/
theorem windowIndex?_eq_of_report_eq_nil (h : script.report = [])
    (hwindow : script.windows[index]? = some window) :
    script.windowIndex? window.identifier = some index := by
  have hnone : ∀ problem, problem ∉ script.windowReport window index := by
    intro problem hproblem
    have hmem := mem_report_iff.mpr (.inr ⟨window, index, hwindow, hproblem⟩)
    rw [h] at hmem
    exact List.not_mem_nil hmem
  by_contra hother
  have hmem : ∃ problem, problem ∈ script.identifierReport window index := by
    rw [identifierReport, if_neg hother]
    split_ifs
    · exact ⟨_, List.mem_singleton_self _⟩
    · exact ⟨_, List.mem_singleton_self _⟩
  obtain ⟨problem, hproblem⟩ := hmem
  exact hnone problem (List.mem_append_left _ hproblem)

/-- A check reports what is to be reported: that there are no windows, which identifiers are blank,
and of every other identifier as many duplicates as there are windows with it that a lookup of it
does not find. A script without problems is one in which a lookup of the identifier of any window
leads to this window. -/
theorem problems_exact (script : Script) :
    script.problems = script.report ∧
      (.noWindows ∈ script.problems ↔ script.windows = []) ∧
      (∀ index, .emptyIdentifier index ∈ script.problems ↔
        ∃ window, script.windows[index]? = some window ∧ OnlyWhiteSpace window.identifier) ∧
      (∀ identifier, ¬OnlyWhiteSpace identifier →
        script.problems.count (.duplicateIdentifier identifier) =
          script.windows.zipIdx.countP fun (window, index) ↦
            window.identifier = identifier ∧ script.windowIndex? identifier ≠ some index) ∧
      (∀ identifier, script.window? identifier =
        (script.windowIndex? identifier).bind (script.windows[·]?)) ∧
      (script.problems = [] → ∀ index window, script.windows[index]? = some window →
        script.windowIndex? window.identifier = some index ∧
          script.window? window.identifier = some window) := by
  rw [problems_eq_report]
  refine ⟨rfl, noWindows_mem_report_iff, fun _ ↦ emptyIdentifier_mem_report_iff,
    fun _ ↦ count_duplicateIdentifier_report, window?_eq_bind script, ?_⟩
  intro h index window hwindow
  have hindex := windowIndex?_eq_of_report_eq_nil h hwindow
  refine ⟨hindex, ?_⟩
  rw [window?_eq_bind, hindex, Option.bind_some, hwindow]

/-- Two windows behind the first have its identifier, and the blank identifiers are no duplicates; a
script of two windows is without problems. -/
theorem problems_exact_repeated :
    ¬OnlyWhiteSpace "a" ∧
      Script.problems ⟨.v1, [.selection ⟨"a", []⟩, .selection ⟨" ", []⟩, .selection ⟨" ", []⟩,
          .dialog ⟨"a", some (.named ⟨[.newLine, .text "x\ny"]⟩), [⟨[.text "\n"]⟩]⟩,
          .selection ⟨"a", []⟩]⟩ =
        [.emptyIdentifier 1, .emptyIdentifier 2, .duplicateIdentifier "a", .embeddedNewline "a" 0,
          .embeddedNewline "a" 1, .duplicateIdentifier "a"] ∧
      Script.problems ⟨.v1, [.selection ⟨"a", []⟩, .selection ⟨"b", []⟩]⟩ = [] ∧
      Script.window? ⟨.v1, [.selection ⟨"a", []⟩, .selection ⟨"b", []⟩]⟩ "b" =
        some (.selection ⟨"b", []⟩) := by
  have hclean : Script.problems ⟨.v1, [.selection ⟨"a", []⟩, .selection ⟨"b", []⟩]⟩ = [] := by
    decide
  refine ⟨by decide, (problems_exact _).1.trans (by decide), hclean, ?_⟩
  exact ((problems_exact _).2.2.2.2.2 hclean 1 (.selection ⟨"b", []⟩) rfl).2

end Script

end DialogueScript
