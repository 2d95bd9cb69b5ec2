import DialogueScript.Proofs.Compile.Correctness

/-!
# Compiling behind another text

What a piece of a compilation gives does not depend on where its text stands, and what it reports
depends on it in one way only: behind a base, every position is moved by the base
(`Position.shift`). Lines are added, and columns are added on the first line, which continues the
last line of the base.

`Place.Moved` relates the place of a text in a source of its own to its place behind a base. Every
step on a tree is moved with its place (`moved_token`, `moved_lines`, `moved_compileWindow`), since
it reaches the places of its parts by reading on from its own.
-/

set_option autoImplicit false
set_option relaxedAutoImplicit false

namespace DialogueScript

open Syntax

/-! ### Positions -/

namespace Position

/-- A position of a source, moved to where it is if the source stands behind a base. -/
def shift (base p : Position) : Position :=
  if p.line = 1 then ⟨base.line, base.column + (p.column - 1)⟩
  else ⟨base.line + (p.line - 1), p.column⟩

/-- Positions are counted from one. -/
theorem one_le_after_start (text : List Char) :
    1 ≤ (start.after text).line ∧ 1 ≤ (start.after text).column := by
  induction text using List.reverseRecOn with
  | nil => exact ⟨le_rfl, le_rfl⟩
  | append_singleton before c ih =>
    rw [after_append, after_cons, after_nil, advance]
    split_ifs
    · exact ⟨Nat.le_add_left 1 _, le_rfl⟩
    · exact ⟨ih.1, Nat.le_add_left 1 _⟩

/-- Assumes: a position that is counted from one. Moving it and reading on is reading on and
moving. -/
theorem advance_shift (base : Position) {p : Position} (hp : 1 ≤ p.line ∧ 1 ≤ p.column)
    (c : Char) : (base.shift p).advance c = base.shift (p.advance c) := by
  unfold advance shift
  by_cases hc : c = '\n'
  · by_cases hline : p.line = 1
    · simp [hc, hline]
    · have hnext : p.line + 1 ≠ 1 := by omega
      simp only [hc, hline, hnext, if_true, if_false, mk.injEq, and_true]
      omega
  · by_cases hline : p.line = 1
    · simp only [hc, hline, if_true, if_false, mk.injEq, true_and]
      omega
    · simp only [hc, hline, if_false]

/-- Reading a text from a base is reading it from the start and moving where it ends. -/
theorem after_eq_shift (base : Position) (text : List Char) :
    base.after text = base.shift (start.after text) := by
  induction text using List.reverseRecOn with
  | nil => rfl
  | append_singleton before c ih =>
    rw [after_append, after_append, ih, after_cons, after_nil, after_cons, after_nil,
      advance_shift base (one_le_after_start before)]

end Position

/-- A place of a source, and where it is if the source stands behind a base: the same text stands
in front of it in the source. -/
def Place.Moved (base place moved : Place) : Prop :=
  ∃ text, place = Place.start.after text ∧ moved = base.after text

namespace Place.Moved

variable {base place moved : Place}

theorem start (base : Place) : base.Moved Place.start base :=
  ⟨[], rfl, rfl⟩

/-- Moved places stay so when one reads on. -/
theorem after (h : base.Moved place moved) (text : List Char) :
    base.Moved (place.after text) (moved.after text) := by
  obtain ⟨before, rfl, rfl⟩ := h
  exact ⟨before ++ text, (Place.after_append _ _ _).symm, (Place.after_append _ _ _).symm⟩

theorem position (h : base.Moved place moved) :
    moved.position = base.position.shift place.position := by
  obtain ⟨text, rfl, rfl⟩ := h
  exact Position.after_eq_shift base.position text

end Place.Moved

/-! ### Findings and steps -/

/-- A finding about a source, moved to where it is if the source stands behind a base. -/
def Finding.moved (base : Position) : Finding → Finding
  | entered rule position => entered rule (base.shift position)
  | emptyLine position => emptyLine (base.shift position)
  | extraNameLines count position => extraNameLines count (base.shift position)
  | .defect d position => .defect d (base.shift position)
  | syntaxError error => syntaxError { error with position := base.shift error.position }
  | notUtf8 fault position => notUtf8 fault (base.shift position)
  | unreadable reason => unreadable reason
  | gaveUp position => gaveUp (position.map base.shift)

namespace Step

variable {α β : Type}

/-- A step on a source, with its reports moved to where they are if the source stands behind a
base. -/
def moved (base : Position) (step : Step α) : Step α :=
  ⟨step.findings.map (Finding.moved base), step.value⟩

variable {base : Position}

theorem moved_map (f : α → β) (step : Step α) :
    (f <$> step).moved base = f <$> step.moved base := rfl

/-- Steps one behind another are moved one by one. -/
theorem moved_bind (first : Step α) (next : α → Step β) :
    (first >>= next).moved base = first.moved base >>= fun a ↦ (next a).moved base := by
  obtain ⟨findings, value⟩ := first
  cases value with
  | none => rfl
  | some a =>
    change Step.mk ((findings ++ (next a).findings).map (Finding.moved base)) (next a).value =
      ⟨findings.map (Finding.moved base) ++ (next a).findings.map (Finding.moved base),
        (next a).value⟩
    rw [List.map_append]

/-- Assumes: two chains of steps whose parts are moved. The second chain is the first, moved. -/
theorem bind_eq_moved {first first' : Step α} {next next' : α → Step β}
    (hfirst : first' = first.moved base) (hnext : ∀ a, next' a = (next a).moved base) :
    first' >>= next' = (first >>= next).moved base := by
  rw [moved_bind, hfirst, funext hnext]

/-- Assumes: a list of steps of which each is moved. All of them are moved. -/
theorem forEach_eq_moved {step : α → Step β} {inputs moved : List α}
    (h : List.Forall₂ (fun input input' ↦ step input' = (step input).moved base) inputs moved) :
    forEach step moved = (forEach step inputs).moved base := by
  induction h with
  | nil => rfl
  | cons hfirst _ ih => exact bind_eq_moved hfirst fun b ↦ by rw [ih, moved_map]

end Step

/-! ### Tags -/

/-- The same value stands at two places, one of which is the other behind a base. -/
def Located.Moved {α : Type} (base : Place) (located moved : Located α) : Prop :=
  located.value = moved.value ∧ base.Moved located.place moved.place

/-- The elements of a list are moved with the place of the first. -/
theorem moved_locate {α : Type} {base place moved : Place} (h : base.Moved place moved)
    (text : α → List Char) (values : List α) :
    List.Forall₂ (Located.Moved base) (locate text place values) (locate text moved values) := by
  induction values generalizing place moved with
  | nil => exact .nil
  | cons value rest ih => exact .cons ⟨rfl, h⟩ (ih (h.after (text value)))

variable {base place moved : Place}

theorem moved_literalValue {literal literal' : Located (List Char)}
    (h : Located.Moved base literal literal') :
    literalValue literal' = (literalValue literal).moved base.position := by
  unfold literalValue
  rw [← h.1, h.2.position]
  cases Literal.value literal.value <;> rfl

theorem moved_literals (tag : Tag) (h : base.Moved place moved) :
    List.Forall₂ (Located.Moved base) (tag.literals place) (tag.literals moved) := by
  rw [Tag.literals, Tag.literals, List.forall₂_map_left_iff, List.forall₂_map_right_iff]
  refine (moved_locate (h.after tag.beforeArgs) Argument.text tag.args).imp ?_
  rintro ⟨_, argument⟩ ⟨_, _⟩ ⟨rfl, hplace⟩
  exact ⟨rfl, hplace.after argument.gap⟩

/-- A call is moved with its tag. The literals are moved one by one, so that the cases are those of
two lists of one length. -/
theorem moved_call (tag : Tag) (h : base.Moved place moved) :
    tag.call moved = (tag.call place).moved base.position := by
  have hliterals := moved_literals tag h
  unfold Tag.call
  rw [h.position]
  generalize tag.literals place = literals at hliterals ⊢
  generalize tag.literals moved = literals' at hliterals ⊢
  cases hliterals with
  | nil => rfl
  | cons htable hothers =>
    refine Step.bind_eq_moved (moved_literalValue htable) fun table ↦ ?_
    cases hothers with
    | nil => rfl
    | cons hindex harguments =>
      refine Step.bind_eq_moved (moved_literalValue hindex) fun index ↦ ?_
      exact Step.bind_eq_moved (Step.forEach_eq_moved (harguments.imp fun _ _ ↦ moved_literalValue))
        fun _ ↦ rfl

theorem moved_token (tag : Tag) (h : base.Moved place moved) :
    tag.token moved = (tag.token place).moved base.position := by
  unfold Tag.token
  rw [h.position]
  split
  · rfl
  · split
    · rfl
    · exact Step.bind_eq_moved rfl fun _ ↦ by rw [moved_call tag h, Step.moved_map]
    · rfl
    · rfl

/-! ### Texts -/

theorem moved_linesFrom (items : TaggedText) (begun : List Token) (h : base.Moved place moved) :
    items.linesFrom moved begun = (items.linesFrom place begun).moved base.position := by
  induction items generalizing place moved begun with
  | nil => rfl
  | cons item rest ih =>
    cases item with
    | run text => exact ih _ (h.after text)
    | tag t =>
      rw [TaggedText.linesFrom, TaggedText.linesFrom]
      refine Step.bind_eq_moved (moved_token t h) fun mark ↦ ?_
      cases mark with
      | some token => exact ih _ (h.after t.text)
      | none =>
        dsimp only
        rw [h.position, ih [] (h.after t.text)]
        refine Step.bind_eq_moved ?_ fun _ ↦ by rw [Step.moved_map]
        cases begun <;> rfl

theorem moved_lines (items : TaggedText) (h : base.Moved place moved) :
    items.lines moved = (items.lines place).moved base.position := by
  rw [TaggedText.lines, TaggedText.lines, h.position]
  exact Step.bind_eq_moved rfl fun _ ↦ moved_linesFrom items [] h

/-! ### Windows -/

theorem moved_requiredName (label : Option Label) (defect : Defect) (position : Position) :
    requiredName label defect (base.position.shift position) =
      (requiredName label defect position).moved base.position := by
  cases label <;> rfl

theorem moved_optionalSpeaker (speaker : Option TaggedText) (h : base.Moved place moved) :
    optionalSpeaker speaker moved = (optionalSpeaker speaker place).moved base.position := by
  cases speaker with
  | none => rfl
  | some name =>
    have htext : base.Moved (speakerTextPlace place) (speakerTextPlace moved) := h.after ['[']
    rw [optionalSpeaker, optionalSpeaker, speakerOf, speakerOf, h.position]
    refine Step.bind_eq_moved rfl fun _ ↦ ?_
    refine Step.bind_eq_moved (moved_lines name htext) fun lines ↦ ?_
    rw [htext.position]
    refine Step.bind_eq_moved ?_ fun _ ↦ rfl
    unfold Step.reportIf
    split_ifs <;> rfl

theorem moved_dialog (window : Dialog) (h : base.Moved place moved) :
    window.compile moved = (window.compile place).moved base.position := by
  unfold Dialog.compile
  rw [h.position]
  refine Step.bind_eq_moved rfl fun _ ↦ ?_
  refine Step.bind_eq_moved (moved_requiredName _ _ _) fun identifier ↦ ?_
  refine Step.bind_eq_moved (moved_optionalSpeaker _ (h.after _)) fun speaker ↦ ?_
  exact Step.bind_eq_moved (moved_lines _ (h.after _)) fun _ ↦ rfl

theorem moved_selection (window : Selection) (h : base.Moved place moved) :
    window.compile moved = (window.compile place).moved base.position := by
  unfold Selection.compile
  rw [h.position]
  refine Step.bind_eq_moved rfl fun _ ↦ ?_
  refine Step.bind_eq_moved (moved_requiredName _ _ _) fun identifier ↦ ?_
  exact Step.bind_eq_moved (moved_lines _ (h.after _)) fun _ ↦ rfl

/-- A window is moved with its place. -/
theorem moved_compileWindow {window window' : Located Syntax.Window}
    (h : Located.Moved base window window') :
    compileWindow window' = (compileWindow window).moved base.position := by
  obtain ⟨place, window⟩ := window
  obtain ⟨moved, _⟩ := window'
  obtain ⟨rfl, hplace⟩ := h
  cases window with
  | dialog w =>
    change DialogueScript.Window.dialog <$> w.compile moved =
      (DialogueScript.Window.dialog <$> w.compile place).moved base.position
    rw [Step.moved_map, moved_dialog w hplace]
  | selection w =>
    change DialogueScript.Window.selection <$> w.compile moved =
      (DialogueScript.Window.selection <$> w.compile place).moved base.position
    rw [Step.moved_map, moved_selection w hplace]

/-- The windows of a source are moved together. -/
theorem moved_windows (windows : List Syntax.Window) (base : Place) :
    Step.forEach compileWindow (locate Window.text base windows) =
      (Step.forEach compileWindow (locate Window.text .start windows)).moved base.position :=
  Step.forEach_eq_moved
    ((moved_locate (.start base) Window.text windows).imp fun _ _ ↦ moved_compileWindow)

end DialogueScript
