import DialogueScript.CommandLine.Run
import DialogueScript.Proofs.Compile.Canonical

/-!
# Problems of compiled scripts

A compiled script is canonical, and most problems cannot occur in a canonical script. It has a
window, its identifiers are words, which are not blank, and none of its texts holds a line feed
(`Window.Clean`). What is left are identifiers that an earlier window has already, and each such
window is reported once and in its turn (`problems_of_canonical`).

So a check of a file succeeds exactly if the bytes of the file compile and no two windows have one
identifier (`code_check_eq_zero_iff`).
-/

set_option autoImplicit false
set_option relaxedAutoImplicit false

namespace DialogueScript

open Syntax

/-! ### Windows without problems of their own -/

/-- A window that has no problem but, perhaps, its identifier in common with an earlier one. -/
structure Window.Clean (window : DialogueScript.Window) : Prop where
  identifier : isBlankIdentifier window.identifier = false
  lines : window.linesProblems = []

/-- No first character of an identifier is white space. -/
theorem not_isWhiteSpace_of_isIdentifierHead {c : Char} (h : isIdentifierHead c = true) :
    Text.isWhiteSpace c = false := by
  have hcode : 65 ≤ c.toNat ∧ c.toNat ≤ 122 := by
    simp only [isIdentifierHead, Char.isAlpha, Char.isUpper, Char.isLower, Bool.or_eq_true,
      Bool.and_eq_true, decide_eq_true_eq, beq_iff_eq, ge_iff_le, UInt32.le_iff_toNat_le] at h
    rcases h with (h | h) | rfl
    · exact ⟨h.1, h.2.trans (by decide)⟩
    · exact ⟨le_trans (by decide) h.1, h.2⟩
    · decide
  simp only [Text.isWhiteSpace, Bool.or_eq_false_iff, Bool.and_eq_false_iff,
    decide_eq_false_iff_not, beq_eq_false_iff_ne]
  omega

/-- Words of the grammar are not blank. -/
theorem not_isBlankIdentifier {identifier : String}
    (h : identifier.toList ∈ Spelling.identifier) : isBlankIdentifier identifier = false := by
  obtain ⟨head, tail, htext, hhead, -⟩ := Spelling.mem_identifier.mp h
  have hblack := not_isWhiteSpace_of_isIdentifierHead hhead
  have hmem : head ∈ Text.trim identifier.toList := by
    rw [Text.trim, htext, List.dropWhile_cons_of_neg (by simp [hblack]), List.mem_reverse,
      List.reverse_cons, List.dropWhile_append]
    split_ifs
    · rw [List.dropWhile_cons_of_neg (by simp [hblack])]
      exact List.mem_singleton_self head
    · exact List.mem_append_right _ (List.mem_singleton_self head)
  exact List.isEmpty_eq_false_iff.mpr (List.ne_nil_of_mem hmem)

theorem not_hasNewline_of_canonical {line : Line} (h : line.Canonical) :
    line.hasNewline = false := by
  rw [Line.hasNewline, List.any_eq_false]
  intro token htoken
  cases token with
  | text content =>
    obtain ⟨-, hchars⟩ := h.each _ htoken
    rw [Token.hasNewline, List.contains_iff_mem]
    exact fun hfeed ↦ hchars _ hfeed (by decide)
  | newLine => exact Bool.false_ne_true
  | function table index arguments => exact Bool.false_ne_true

/-- Assumes: no line holds a line feed. Then none is reported, whatever the lines are numbered
from. -/
theorem lineProblems_eq_nil (identifier : String) {lines : List Line}
    (h : ∀ line ∈ lines, line.hasNewline = false) (number : Nat) :
    lineProblems identifier number lines = [] := by
  induction lines generalizing number with
  | nil => rfl
  | cons line rest ih =>
    rw [lineProblems, h line List.mem_cons_self,
      ih fun later hlater ↦ h later (List.mem_cons_of_mem line hlater)]
    rfl

/-- The identifier of a canonical window is a word, and all its lines are canonical, also the name
line of a speaker. -/
theorem parts_of_canonical {window : DialogueScript.Window} (h : window.Canonical) :
    window.identifier.toList ∈ Spelling.identifier ∧
      (∀ line ∈ window.nameLine?.toList, line.Canonical) ∧
        ∀ line ∈ window.lines, line.Canonical := by
  cases window with
  | dialog w =>
    refine ⟨h.identifier, fun line hline ↦ ?_, h.lines⟩
    obtain ⟨identifier, speaker, lines⟩ := w
    cases speaker with
    | none => exact absurd hline (by simp [Window.nameLine?])
    | some speaker =>
      cases speaker with
      | named nameLine =>
        obtain rfl : line = nameLine := by simpa [Window.nameLine?] using hline
        exact h.speaker _ rfl
      | variablyNamed => exact (h.speaker _ rfl).elim
  | selection w => exact ⟨h.identifier, by simp [Window.nameLine?], h.lines⟩

theorem clean_of_canonical {window : DialogueScript.Window} (h : window.Canonical) :
    window.Clean := by
  obtain ⟨hidentifier, hname, hlines⟩ := parts_of_canonical h
  refine ⟨not_isBlankIdentifier hidentifier, ?_⟩
  rw [Window.linesProblems,
    lineProblems_eq_nil _ fun line hline ↦ not_hasNewline_of_canonical (hname line hline),
    lineProblems_eq_nil _ fun line hline ↦ not_hasNewline_of_canonical (hlines line hline)]
  rfl

/-! ### Repeated identifiers -/

/-- The identifiers of a list that stand in it at an earlier place already, each as often as that is
so and in the order of the list. -/
def repeatedIdentifiers (identifiers : List String) : List String :=
  (identifiers.zipIdx.filter fun (identifier, i) ↦ identifier ∈ identifiers.take i).map Prod.fst

example : repeatedIdentifiers ["a", "b", "a", "A", "a", "b"] = ["a", "a", "b"] := by decide

/-- No identifier is repeated exactly if all of them are different. -/
theorem repeatedIdentifiers_eq_nil_iff {identifiers : List String} :
    repeatedIdentifiers identifiers = [] ↔ identifiers.Nodup := by
  rw [repeatedIdentifiers, List.map_eq_nil_iff, List.filter_eq_nil_iff, List.Nodup,
    List.pairwise_iff_getElem]
  constructor
  · intro h i j hi hj hlt heq
    refine h (identifiers[j], j) ?_ (decide_eq_true ?_)
    · exact List.mk_mem_zipIdx_iff_getElem?.mpr (List.getElem?_eq_getElem hj)
    · exact List.mem_take_iff_getElem.mpr ⟨i, by omega, heq⟩
  · rintro h ⟨identifier, j⟩ hmem hrepeated
    obtain ⟨hj, rfl⟩ := List.getElem?_eq_some_iff.mp (List.mk_mem_zipIdx_iff_getElem?.mp hmem)
    obtain ⟨i, hi, heq⟩ := List.mem_take_iff_getElem.mp (of_decide_eq_true hrepeated)
    exact h i j (by omega) hj (by omega) heq

/-- The identifiers of a list that are known from the beginning or stand in the list at an earlier
place already. -/
def repeatedBehind (seen identifiers : List String) : List String :=
  (identifiers.zipIdx.filter fun (identifier, i) ↦
    identifier ∈ seen ∨ identifier ∈ identifiers.take i).map Prod.fst

theorem repeatedBehind_nil (identifiers : List String) :
    repeatedBehind [] identifiers = repeatedIdentifiers identifiers := by
  simp [repeatedBehind, repeatedIdentifiers]

/-- Behind the first identifier of a list that identifier is known. -/
theorem repeatedBehind_cons (seen : List String) (identifier : String) (rest : List String) :
    repeatedBehind seen (identifier :: rest) =
      (if identifier ∈ seen then [identifier] else []) ++
        repeatedBehind (identifier :: seen) rest := by
  have hshift : rest.zipIdx 1 = rest.zipIdx.map (Prod.map id (· + 1)) := List.zipIdx_succ
  have hknown : ∀ (other : String) (i : Nat),
      (other ∈ seen ∨ other ∈ (identifier :: rest).take (i + 1)) ↔
        (other ∈ identifier :: seen ∨ other ∈ rest.take i) := by
    intro other i
    rw [List.take_succ_cons, List.mem_cons, List.mem_cons, or_assoc, or_left_comm]
  rw [repeatedBehind, repeatedBehind, List.zipIdx_cons, List.filter_cons, hshift, List.filter_map]
  simp only [Function.comp_def, Prod.map, id_eq, hknown, List.take_zero, List.not_mem_nil, or_false,
    decide_eq_true_eq]
  split_ifs <;> simp [Function.comp_def]

/-- Assumes: windows without problems of their own. Those are reported whose identifier is known
from the beginning or from an earlier window. -/
theorem windowProblems_of_clean {windows : List DialogueScript.Window}
    (hclean : ∀ window ∈ windows, window.Clean) (index : Nat) (seen : List String) :
    windowProblems index seen windows =
      (repeatedBehind seen (windows.map Window.identifier)).map .duplicateIdentifier := by
  induction windows generalizing index seen with
  | nil => rfl
  | cons window rest ih =>
    obtain ⟨hfilled, hlines⟩ := hclean window List.mem_cons_self
    have hrest := ih (fun later hlater ↦ hclean later (List.mem_cons_of_mem window hlater))
    rw [windowProblems, Window.identifierProblems, Window.remember, hfilled, hlines,
      List.append_nil, List.map_cons, repeatedBehind_cons, List.map_append]
    simp only [Bool.false_eq_true, if_false, hrest]
    split_ifs <;> rfl

/-- A canonical script has no problems but repeated identifiers. -/
theorem problems_of_canonical {script : Script} (h : script.Canonical) :
    script.problems =
      (repeatedIdentifiers (script.windows.map Window.identifier)).map .duplicateIdentifier := by
  have hwindows : script.windows.isEmpty = false := List.isEmpty_eq_false_iff.mpr h.ne_nil
  have hclean := windowProblems_of_clean (fun w hw ↦ clean_of_canonical (h.windows w hw)) 0 []
  rw [Script.problems, hwindows, hclean, repeatedBehind_nil]
  rfl

theorem problems_eq_nil_iff {script : Script} (h : script.Canonical) :
    script.problems = [] ↔ (script.windows.map Window.identifier).Nodup := by
  rw [problems_of_canonical h, List.map_eq_nil_iff, repeatedIdentifiers_eq_nil_iff]

/-! ### Checking a file -/

/-- Assumes: the options of a job can be loaded, and its input can be read. A check succeeds exactly
if the bytes compile to a script without problems. -/
theorem code_check_eq_zero_iff {job : Job} {setting : LogSetting} {disk : Disk} {options : Options}
    {bytes : List UInt8} (hoptions : job.options disk.read = .ok options)
    (hread : disk.read job.input = .ok bytes) :
    ((Command.check job).run setting disk).code = 0 ↔
      ∃ script, (compile options.formatVersion (.bytes bytes)).result = .ok script ∧
        script.problems = [] := by
  have hresult : (job.compile disk.read).2 =
      (compile options.formatVersion (.bytes bytes)).result.mapError
        (.compilation job.input) := by
    simp only [Job.compile, hoptions, hread]
  rw [Command.run, Command.perform]
  dsimp only
  rw [hresult]
  cases (compile options.formatVersion (.bytes bytes)).result with
  | error error => simp [Except.mapError]
  | ok script =>
    dsimp only [Except.mapError]
    cases hproblems : script.problems with
    | nil => simp [hproblems]
    | cons problem others => simp [hproblems]

/-- The problems of a script that a source in any form compiles to are its repeated identifiers, one
for each window that has the identifier of an earlier one. Hence a check of an input that can be
read, under options that can be loaded, succeeds exactly if the input compiles and no two windows
have one identifier. -/
theorem compiled_script_problems :
    (∀ {version : FormatVersion} {source : Source} {script : Script},
      (compile version source).result = .ok script ∨
          (tryCompile version source).value = some script →
        script.problems =
          (repeatedIdentifiers (script.windows.map Window.identifier)).map .duplicateIdentifier) ∧
      ∀ {job : Job} {setting : LogSetting} {disk : Disk} {options : Options} {bytes : List UInt8},
        job.options disk.read = .ok options → disk.read job.input = .ok bytes →
          (((Command.check job).run setting disk).code = 0 ↔
            ∃ script, (compile options.formatVersion (.bytes bytes)).result = .ok script ∧
              (script.windows.map Window.identifier).Nodup) := by
  have hcanonical : ∀ {version : FormatVersion} {source : Source} {script : Script},
      (compile version source).result = .ok script → script.Canonical :=
    fun h ↦ (canonical_of_tryCompile (result_compile_eq_ok_iff.mp h)).1
  refine ⟨fun h ↦ problems_of_canonical ?_, fun hoptions hread ↦ ?_⟩
  · rcases h with h | h
    · exact hcanonical h
    · exact (canonical_of_tryCompile h).1
  · rw [code_check_eq_zero_iff hoptions hread]
    exact exists_congr fun script ↦ and_congr_right fun h ↦ problems_eq_nil_iff (hcanonical h)

/-- Two windows have the identifier of the first, and one that differs from it in case only is no
problem. -/
theorem compiled_script_problems_case :
    Script.problems ⟨.v1, [.selection ⟨"a", []⟩, .selection ⟨"A", []⟩, .dialog ⟨"a", none, []⟩,
        .selection ⟨"a", []⟩]⟩ = [.duplicateIdentifier "a", .duplicateIdentifier "a"] ∧
      ((Command.check ⟨"f", none, none⟩).run LogSetting.empty
        ⟨[([['f']], Utf8.encode "[sel a][sel A]".toList)]⟩).code = 0 := by
  have hrepeated : (compile .v1 (.text "[sel a][sel A][dlg a][sel a]".toList)).result =
      .ok ⟨.v1, [.selection ⟨"a", []⟩, .selection ⟨"A", []⟩, .dialog ⟨"a", none, []⟩,
        .selection ⟨"a", []⟩]⟩ := by cbv
  have hdifferent : (compile .v1 (.bytes (Utf8.encode "[sel a][sel A]".toList))).result =
      .ok ⟨.v1, [.selection ⟨"a", []⟩, .selection ⟨"A", []⟩]⟩ := by cbv
  have hread : Disk.read ⟨[([['f']], Utf8.encode "[sel a][sel A]".toList)]⟩ "f" =
      .ok (Utf8.encode "[sel a][sel A]".toList) := by cbv
  have hoptions : Job.options ⟨"f", none, none⟩
      (Disk.read ⟨[([['f']], Utf8.encode "[sel a][sel A]".toList)]⟩) =
        .ok ⟨.v1, "MessageScriptCompiler"⟩ := rfl
  exact ⟨compiled_script_problems.1 (Or.inl hrepeated),
    (compiled_script_problems.2 hoptions hread).mpr ⟨_, hdifferent, by decide⟩⟩

end DialogueScript
