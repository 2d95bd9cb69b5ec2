import DialogueScript.CommandLine.Run
import DialogueScript.Proofs.Text.Quoted
import DialogueScript.Proofs.Text.Utf8

/-!
# Scripts are told apart by their RON

No two scripts have the same RON (`ron_determines_script`). A text in RON is put together from the
texts of the parts of a value, and agrees with another one only if all parts do, whatever stands
behind them (`Text.AgreeOnlyIf`). No list needs its length in front of it, because the row of a
further element is indented deeper than the end of the list (`agreeOnlyIf_listBody`). An integer
alone does not say where it ends, and is told apart by the comma behind it (`agreeOnlyIf_integer`).
-/

set_option autoImplicit false
set_option relaxedAutoImplicit false

namespace DialogueScript

open Text

namespace Ron

variable {p q : Prop} {depth : Nat}

/-- The same text in front of both and the same one behind both change nothing. -/
theorem agreeOnlyIf_enclosed {first second : String}
    (h : AgreeOnlyIf p first.toList second.toList) (before behind : String) :
    AgreeOnlyIf p (before ++ first ++ behind).toList (before ++ second ++ behind).toList := by
  simp only [String.toList_append]
  exact (h.behind before.toList).before behind.toList

/-! ### Rows -/

/-- What stands behind the content of a row. -/
def rowEnd : List Char := [',', '\n']

theorem toList_row (content : String) :
    (row depth content).toList = (indent (depth + 1)).toList ++ (content.toList ++ rowEnd) := by
  rw [row, String.toList_append, String.toList_append, List.append_assoc]
  rfl

/-- A row is indented deeper than the bracket that it stands in. -/
theorem toList_indent_succ (depth : Nat) :
    (indent (depth + 1)).toList = (indent depth).toList ++ [' ', ' ', ' ', ' '] := by
  rw [indent, indent, String.toList_ofList, String.toList_ofList, Nat.mul_succ,
    ← List.replicate_append_replicate]
  rfl

/-- Rows agree only if their contents do, up to the comma. -/
theorem agreeOnlyIf_row {first second : String}
    (h : AgreeOnlyIf p (first.toList ++ rowEnd) (second.toList ++ rowEnd)) :
    AgreeOnlyIf p (row depth first).toList (row depth second).toList := by
  rw [toList_row, toList_row]
  exact h.behind (indent (depth + 1)).toList

/-! ### Lists -/

section Lists

variable {α : Type} {render : Nat → α → String}

/-- What stands behind the opening bracket of a list and its line feed. -/
def listBody (render : Nat → α → String) (depth : Nat) (values : List α) : List Char :=
  values.flatMap (fun value ↦ (row depth (render (depth + 1) value)).toList) ++
    ((indent depth).toList ++ [']'])

theorem toList_list_cons (value : α) (rest : List α) :
    (list render depth (value :: rest)).toList =
      ['[', '\n'] ++ listBody render depth (value :: rest) := by
  rw [list, listBody, String.toList_append, String.toList_append, String.toList_append,
    String.toList_join, List.flatMap_map, List.append_assoc, List.append_assoc]
  · rfl
  · exact List.cons_ne_nil value rest

/-- The end of a list is no row of it. -/
theorem agreeOnlyIf_end_row (content : String) (behind : List Char) :
    AgreeOnlyIf p ((indent depth).toList ++ [']']) ((row depth content).toList ++ behind) := by
  have hdeeper : AgreeOnlyIf p [']'] ([' ', ' ', ' ', ' '] ++ (content.toList ++ rowEnd ++ behind)) :=
    .of_head rfl rfl (by decide)
  rw [toList_row, toList_indent_succ, List.append_assoc, List.append_assoc]
  exact hdeeper.behind (indent depth).toList

/-- Assumes: rows that agree only if they hold the same element. Lists agree only if they are the
same. The induction is on the first list. -/
theorem agreeOnlyIf_listBody
    (h : ∀ a b, AgreeOnlyIf (a = b) ((render (depth + 1) a).toList ++ rowEnd)
      ((render (depth + 1) b).toList ++ rowEnd)) (first second : List α) :
    AgreeOnlyIf (first = second) (listBody render depth first) (listBody render depth second) := by
  induction first generalizing second with
  | nil =>
    cases second with
    | nil => exact .same rfl _
    | cons b later =>
      rw [listBody, listBody, List.flatMap_cons, List.append_assoc]
      exact agreeOnlyIf_end_row _ _
  | cons a rest ih =>
    cases second with
    | nil =>
      rw [listBody, listBody, List.flatMap_cons, List.append_assoc]
      exact (agreeOnlyIf_end_row _ _).symm
    | cons b later =>
      rw [listBody, listBody, List.flatMap_cons, List.flatMap_cons, List.append_assoc,
        List.append_assoc]
      exact ((agreeOnlyIf_row (h a b)).append (ih later)).mono fun ⟨hhead, htail⟩ ↦ by
        rw [hhead, htail]

/-- Assumes: rows that agree only if they hold the same element. Lists agree only if they are the
same. -/
theorem agreeOnlyIf_list
    (h : ∀ a b, AgreeOnlyIf (a = b) ((render (depth + 1) a).toList ++ rowEnd)
      ((render (depth + 1) b).toList ++ rowEnd)) (first second : List α) :
    AgreeOnlyIf (first = second) (list render depth first).toList
      (list render depth second).toList := by
  have hempty : ∀ (value : α) (rest : List α), AgreeOnlyIf False (list render depth []).toList
      (list render depth (value :: rest)).toList := by
    intro value rest
    have hsecond : AgreeOnlyIf False [']'] (['\n'] ++ listBody render depth (value :: rest)) :=
      .of_head rfl rfl (by decide)
    have hnil : (list render depth ([] : List α)).toList = ['['] ++ [']'] := by
      simp [list]
    rw [toList_list_cons, hnil]
    exact hsecond.behind ['[']
  cases first with
  | nil =>
    cases second with
    | nil => exact .same rfl _
    | cons b later => exact (hempty b later).mono False.elim
  | cons a rest =>
    cases second with
    | nil => exact (hempty a rest).symm.mono False.elim
    | cons b later =>
      rw [toList_list_cons, toList_list_cons]
      exact (agreeOnlyIf_listBody h (a :: rest) (b :: later)).behind ['[', '\n']

end Lists

/-! ### Fields -/

/-- Fields of the same names agree only under the conditions of all of them. -/
inductive FieldsAgreeOnlyIf (depth : Nat) :
    Prop → List (String × (Nat → String)) → List (String × (Nat → String)) → Prop
  | nil : FieldsAgreeOnlyIf depth True [] []
  | cons (name : String) {p q : Prop} {first second : Nat → String}
      {others rest : List (String × (Nat → String))}
      (hfield : AgreeOnlyIf p ((first (depth + 1)).toList ++ rowEnd)
        ((second (depth + 1)).toList ++ rowEnd))
      (hrest : FieldsAgreeOnlyIf depth q others rest) :
      FieldsAgreeOnlyIf depth (p ∧ q) ((name, first) :: others) ((name, second) :: rest)

/-- The row of a field. -/
def fieldRow (depth : Nat) (field : String × (Nat → String)) : List Char :=
  (row depth (field.1 ++ ": " ++ field.2 (depth + 1))).toList

theorem toList_fields (values : List (String × (Nat → String))) :
    (fields depth values).toList =
      ['(', '\n'] ++ values.flatMap (fieldRow depth) ++ ((indent depth).toList ++ [')']) := by
  rw [fields, String.toList_append, String.toList_append, String.toList_append,
    String.toList_join, List.flatMap_map, List.append_assoc]
  rfl

theorem agreeOnlyIf_fields {first second : List (String × (Nat → String))}
    (h : FieldsAgreeOnlyIf depth p first second) :
    AgreeOnlyIf p (fields depth first).toList (fields depth second).toList := by
  have hrows : AgreeOnlyIf p (first.flatMap (fieldRow depth)) (second.flatMap (fieldRow depth)) := by
    induction h with
    | nil => exact AgreeOnlyIf.refl _
    | cons name hfield _ ih =>
      have hnamed := hfield.behind (name ++ ": ").toList
      rw [← List.append_assoc, ← List.append_assoc, ← String.toList_append,
        ← String.toList_append] at hnamed
      rw [List.flatMap_cons, List.flatMap_cons]
      exact (agreeOnlyIf_row hnamed).append ih
  rw [toList_fields, toList_fields]
  exact (hrows.behind ['(', '\n']).before _

/-! ### Texts and integers -/

theorem agreeOnlyIf_quoted (first second : String) :
    AgreeOnlyIf (first = second) (quoted first).toList (quoted second).toList := by
  have hmarks : ∀ mark ∈ ['\'', '"'], announced mark = mark ∧ mark ≠ 'u' := by simp [announced]
  exact agreeOnlyIf_quote (by simp) hmarks first second

/-- Integers with the comma behind them agree only if they are the same. -/
theorem agreeOnlyIf_integer (m n : Int16) :
    AgreeOnlyIf (m = n) ((integer m).toList ++ rowEnd) ((integer n).toList ++ rowEnd) := by
  have hcomma : ∀ k : Int16, ',' ∉ (integer k).toList := by
    intro k hmem
    rw [integer, Literal.toList_ofInt, List.mem_append] at hmem
    rcases hmem with hsign | hdigit
    · split_ifs at hsign <;> simp at hsign
    · exact absurd (Decimal.isDigit_of_mem_digits hdigit) (by decide)
  have htexts := (AgreeOnlyIf.of_mark (hcomma m) (hcomma n)).before ['\n']
  rw [List.append_assoc, List.append_assoc] at htexts
  refine htexts.mono fun heq ↦ ?_
  have hvalue := congrArg Literal.value heq
  rw [integer, integer, Literal.value_ofInt, Literal.value_ofInt] at hvalue
  exact Except.ok.inj hvalue

/-- Lists of integers agree only if they are the same. -/
theorem agreeOnlyIf_integers (first second : List Int16) :
    AgreeOnlyIf (first = second) (list (fun _ ↦ integer) depth first).toList
      (list (fun _ ↦ integer) depth second).toList := by
  refine agreeOnlyIf_list ?_ first second
  exact agreeOnlyIf_integer

end Ron

open Ron

variable {depth : Nat}

/-! ### Tokens and lines -/

/-- The letter that the word for a token begins with. -/
def Token.initial : Token → Char
  | .text _ => 't'
  | .newLine => 'n'
  | .function .. => 'f'

theorem head?_token (token : Token) : (token.ron depth).toList.head? = some token.initial := by
  cases token <;> simp [Token.ron, Token.initial]

theorem agreeOnlyIf_token (first second : Token) :
    AgreeOnlyIf (first = second) (first.ron depth).toList (second.ron depth).toList := by
  by_cases hinitial : first.initial = second.initial
  · cases first with
    | text content =>
      cases second with
      | text other =>
        exact (agreeOnlyIf_enclosed (agreeOnlyIf_quoted content other) _ _).mono
          (congrArg Token.text)
      | newLine => simp [Token.initial] at hinitial
      | function => simp [Token.initial] at hinitial
    | newLine =>
      cases second with
      | text => simp [Token.initial] at hinitial
      | newLine => exact .same rfl _
      | function => simp [Token.initial] at hinitial
    | function table index arguments =>
      cases second with
      | text => simp [Token.initial] at hinitial
      | newLine => simp [Token.initial] at hinitial
      | function otherTable otherIndex others =>
        rw [Token.ron, Token.ron, String.toList_append, String.toList_append]
        apply AgreeOnlyIf.mono
        · apply AgreeOnlyIf.behind
          apply agreeOnlyIf_fields
          exact .cons _ (agreeOnlyIf_integer table otherTable)
            (.cons _ (agreeOnlyIf_integer index otherIndex)
              (.cons _ ((agreeOnlyIf_integers arguments others).before rowEnd) .nil))
        · rintro ⟨rfl, rfl, rfl, -⟩
          rfl
  · exact .of_head (head?_token first) (head?_token second) hinitial

theorem agreeOnlyIf_line (first second : Line) :
    AgreeOnlyIf (first = second) (first.ron depth).toList (second.ron depth).toList :=
  (agreeOnlyIf_list (fun a b ↦ (agreeOnlyIf_token a b).before rowEnd) first.tokens
    second.tokens).mono fun h ↦ congrArg Line.mk h

/-- Lists of lines agree only if they are the same. -/
theorem agreeOnlyIf_lines (first second : List Line) :
    AgreeOnlyIf (first = second) (list Line.ron depth first).toList
      (list Line.ron depth second).toList :=
  agreeOnlyIf_list (fun a b ↦ (agreeOnlyIf_line a b).before rowEnd) first second

/-! ### Speakers and windows -/

theorem agreeOnlyIf_speaker (first second : Speaker) :
    AgreeOnlyIf (first = second) (first.ron depth).toList (second.ron depth).toList := by
  have hnamed : ∀ line, ((Speaker.named line).ron depth).toList.head? = some 'n' := by
    simp [Speaker.ron]
  have hvariably : (Speaker.variablyNamed.ron depth).toList.head? = some 'v' := by
    simp [Speaker.ron]
  cases first with
  | named line =>
    cases second with
    | named other =>
      rw [Speaker.ron, Speaker.ron, String.toList_append, String.toList_append]
      apply AgreeOnlyIf.mono
      · apply AgreeOnlyIf.behind
        apply agreeOnlyIf_fields
        exact .cons _ ((agreeOnlyIf_line line other).before rowEnd) .nil
      · rintro ⟨rfl, -⟩
        rfl
    | variablyNamed => exact .of_head (hnamed line) hvariably (by decide)
  | variablyNamed =>
    cases second with
    | named other => exact .of_head hvariably (hnamed other) (by decide)
    | variablyNamed => exact .same rfl _

theorem agreeOnlyIf_optionalSpeaker (first second : Option Speaker) :
    AgreeOnlyIf (first = second) (optionalSpeakerRon depth first).toList
      (optionalSpeakerRon depth second).toList := by
  have hsome : ∀ speaker, (optionalSpeakerRon depth (some speaker)).toList.head? = some 'S' := by
    simp [optionalSpeakerRon]
  have hnone : (optionalSpeakerRon depth none).toList.head? = some 'N' := by
    simp [optionalSpeakerRon]
  cases first with
  | none =>
    cases second with
    | none => exact .same rfl _
    | some other => exact .of_head hnone (hsome other) (by decide)
  | some speaker =>
    cases second with
    | none => exact .of_head (hsome speaker) hnone (by decide)
    | some other =>
      exact (agreeOnlyIf_enclosed (agreeOnlyIf_speaker speaker other) _ _).mono (congrArg some)

theorem agreeOnlyIf_window (first second : Window) :
    AgreeOnlyIf (first = second) (first.ron depth).toList (second.ron depth).toList := by
  have hdialog : ∀ w, ((Window.dialog w).ron depth).toList.head? = some 'd' := by
    simp [Window.ron]
  have hselection : ∀ w, ((Window.selection w).ron depth).toList.head? = some 's' := by
    simp [Window.ron]
  cases first with
  | dialog w =>
    cases second with
    | dialog v =>
      obtain ⟨identifier, speaker, lines⟩ := w
      obtain ⟨otherIdentifier, otherSpeaker, otherLines⟩ := v
      apply AgreeOnlyIf.mono
      · apply agreeOnlyIf_enclosed
        apply agreeOnlyIf_fields
        exact .cons _ ((agreeOnlyIf_quoted identifier otherIdentifier).before rowEnd)
          (.cons _ ((agreeOnlyIf_optionalSpeaker speaker otherSpeaker).before rowEnd)
            (.cons _ ((agreeOnlyIf_lines lines otherLines).before rowEnd) .nil))
      · rintro ⟨rfl, rfl, rfl, -⟩
        rfl
    | selection v => exact .of_head (hdialog w) (hselection v) (by decide)
  | selection w =>
    cases second with
    | dialog v => exact .of_head (hselection w) (hdialog v) (by decide)
    | selection v =>
      obtain ⟨identifier, lines⟩ := w
      obtain ⟨otherIdentifier, otherLines⟩ := v
      apply AgreeOnlyIf.mono
      · apply agreeOnlyIf_enclosed
        apply agreeOnlyIf_fields
        exact .cons _ ((agreeOnlyIf_quoted identifier otherIdentifier).before rowEnd)
          (.cons _ ((agreeOnlyIf_lines lines otherLines).before rowEnd) .nil)
      · rintro ⟨rfl, rfl, -⟩
        rfl

/-! ### Scripts -/

theorem agreeOnlyIf_formatVersion (first second : FormatVersion) :
    AgreeOnlyIf (first = second) first.ron.toList second.ron.toList := by
  cases first with
  | v1 =>
    cases second with
    | v1 => exact .same rfl _
    | v1BigEndian => exact .of_head rfl rfl (by decide)
  | v1BigEndian =>
    cases second with
    | v1 => exact .of_head rfl rfl (by decide)
    | v1BigEndian => exact .same rfl _

theorem agreeOnlyIf_script (first second : Script) :
    AgreeOnlyIf (first = second) first.ron.toList second.ron.toList := by
  obtain ⟨version, windows⟩ := first
  obtain ⟨otherVersion, otherWindows⟩ := second
  have hwindows : AgreeOnlyIf (windows = otherWindows) (list Window.ron 1 windows).toList
      (list Window.ron 1 otherWindows).toList :=
    agreeOnlyIf_list (fun a b ↦ (agreeOnlyIf_window a b).before rowEnd) windows otherWindows
  apply AgreeOnlyIf.mono
  · apply agreeOnlyIf_fields
    exact .cons _ ((agreeOnlyIf_formatVersion version otherVersion).before rowEnd)
      (.cons _ (hwindows.before rowEnd) .nil)
  · rintro ⟨rfl, rfl, -⟩
    rfl

/-- The RON of a script determines the script, and so do the bytes of a file that it is written
to. -/
theorem ron_determines_script (first second : Script) :
    (Emit.ron.render first = Emit.ron.render second ↔ first = second) ∧
      (Utf8.encode (Emit.ron.render first).toList = Utf8.encode (Emit.ron.render second).toList ↔
        first = second) := by
  have htext : Emit.ron.render first = Emit.ron.render second → first = second := by
    intro heq
    have hron : first.ron.toList ++ [] = second.ron.toList ++ [] := by
      rw [show first.ron = second.ron from heq]
    exact (agreeOnlyIf_script first second [] [] hron).1
  refine ⟨⟨htext, congrArg _⟩, fun hbytes ↦ htext ?_, fun h ↦ by rw [h]⟩
  have hdecoded := congrArg Utf8.decode hbytes
  rw [Utf8.decode_encode, Utf8.decode_encode] at hdecoded
  exact String.toList_inj.mp (congrArg Utf8.Decoded.text hdecoded)

end DialogueScript
