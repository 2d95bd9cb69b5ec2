import DialogueScript.Proofs.Compile.Warnings

/-!
# How lines are put together

The tokens of a text and the ends of its lines come one behind another, and an `Assembler` makes
lines of them. It holds the finished lines and an accumulator that is idle or builds a line. A token
opens a line or goes behind the tokens of the open one; an end closes the open line, or adds an
empty line if none is open. This is what the compiler does (`finish_feed`), and the accumulator
holds the tokens behind the last end, never none of them (`value_feed`).

So the lines are the stream of marks of a text, cut at the ends. `lines_assembled` counts them, says
which tokens each of them holds, and finds the empty ones where the warnings are.
-/

set_option autoImplicit false
set_option relaxedAutoImplicit false

namespace DialogueScript

open Syntax

/-! ### Assemblers -/

/-- The line that is being put together, if one is. -/
inductive Accumulator where
  | idle
  | building (tokens : List Token)
deriving DecidableEq, Repr

/-- Finished lines, and the line that is being put together. -/
structure Assembler where
  lines : List Line
  current : Accumulator
deriving DecidableEq, Repr

namespace Assembler

/-- No line is finished, and none is begun. -/
def start : Assembler := ⟨[], .idle⟩

/-- Puts a token into the open line, which is opened first if there is none. -/
def push (assembler : Assembler) (token : Token) : Assembler :=
  match assembler.current with
  | .building tokens => { assembler with current := .building (tokens ++ [token]) }
  | .idle => { assembler with current := .building [token] }

/-- Closes the open line, or adds an empty one if there is none. Says whether a line was open. -/
def endLine (assembler : Assembler) : Assembler × Bool :=
  match assembler.current with
  | .building tokens => (⟨assembler.lines ++ [⟨tokens⟩], .idle⟩, true)
  | .idle => (⟨assembler.lines ++ [⟨[]⟩], .idle⟩, false)

/-- All lines, where a line that is still open is the last one. -/
def finish (assembler : Assembler) : List Line :=
  match assembler.current with
  | .building tokens => assembler.lines ++ [⟨tokens⟩]
  | .idle => assembler.lines

end Assembler

namespace Syntax

/-- Hands a piece of a text to an assembler. -/
def Item.feed (place : Place) (assembler : Assembler) : Item → Step Assembler
  | .run text =>
    match stripNewlines text with
    | [] => pure assembler
    | kept => pure (assembler.push (.text (String.ofList kept)))
  | .tag t => do
    match ← t.token place with
    | some token => pure (assembler.push token)
    | none =>
      let (next, wasOpen) := assembler.endLine
      .reportIf (!wasOpen) (.emptyLine place.position)
      pure next

/-- Hands the pieces of a text to an assembler, one behind another. -/
def TaggedText.feed (place : Place) (assembler : Assembler) : TaggedText → Step Assembler
  | [] => pure assembler
  | item :: rest => do
    let next ← item.feed place assembler
    TaggedText.feed (place.after item.text) next rest

end Syntax

/-! ### The accumulator -/

/-- An accumulator for the tokens of a line, which is idle if there are none. -/
def Accumulator.ofTokens : List Token → Accumulator
  | [] => .idle
  | tokens => .building tokens

theorem Accumulator.ofTokens_ne_building_nil (tokens : List Token) :
    ofTokens tokens ≠ .building [] := by
  cases tokens <;> simp [ofTokens]

namespace Assembler

variable (lines : List Line) (begun : List Token)

theorem push_ofTokens (token : Token) :
    push ⟨lines, .ofTokens begun⟩ token = ⟨lines, .ofTokens (begun ++ [token])⟩ := by
  cases begun <;> rfl

theorem endLine_ofTokens :
    endLine ⟨lines, .ofTokens begun⟩ = (⟨lines ++ [⟨begun⟩], .ofTokens []⟩, !begun.isEmpty) := by
  cases begun <;> rfl

theorem finish_ofTokens :
    finish ⟨lines, .ofTokens begun⟩ = lines ++ if begun.isEmpty then [] else [⟨begun⟩] := by
  cases begun with
  | nil => exact (List.append_nil lines).symm
  | cons token rest => rfl

end Assembler

/-- Steps one behind another are the same in whatever way they are grouped. -/
instance : LawfulMonad Step :=
  LawfulMonad.mk' Step
    (by
      rintro α ⟨findings, value⟩
      cases value <;> rfl)
    (fun _ _ ↦ rfl)
    (by
      rintro α β γ ⟨findings, value⟩ second third
      cases value with
      | none => rfl
      | some a =>
        change Step.bind ⟨findings ++ (second a).findings, (second a).value⟩ third =
          ⟨findings ++ (Step.bind (second a) third).findings, (Step.bind (second a) third).value⟩
        unfold Step.bind
        cases (second a).value with
        | none => rfl
        | some b => exact congrArg (Step.mk · _) (List.append_assoc _ _ _))
    (fun _ _ ↦ rfl) (fun _ _ ↦ rfl) (fun _ _ ↦ rfl)
    (by
      rintro α β f ⟨findings, value⟩
      cases value with
      | none => rfl
      | some a => exact congrArg (Step.mk · _) (List.append_nil findings))

/-- A run hands over its token, if it has one. -/
theorem feed_run (place : Place) (lines : List Line) (begun : List Token) (run : List Char) :
    (Item.run run).feed place ⟨lines, .ofTokens begun⟩ =
      pure ⟨lines, .ofTokens (begun ++ runTokens run)⟩ := by
  unfold Item.feed runTokens
  dsimp only
  cases stripNewlines run with
  | nil =>
    dsimp only
    rw [List.append_nil]
  | cons c kept => exact congrArg pure (Assembler.push_ofTokens lines begun _)

/-- An assembler that has lines and tokens of an open line goes on as the compiler does with these
tokens, and puts the lines in front. The induction is on the pieces of the text. -/
theorem finish_feed (items : TaggedText) (place : Place) (lines : List Line)
    (begun : List Token) :
    Assembler.finish <$> items.feed place ⟨lines, .ofTokens begun⟩ =
      (lines ++ ·) <$> items.linesFrom place begun := by
  induction items generalizing place lines begun with
  | nil => exact congrArg pure (Assembler.finish_ofTokens lines begun)
  | cons item rest ih =>
    cases item with
    | run run =>
      rw [TaggedText.feed, feed_run, pure_bind, TaggedText.linesFrom]
      exact ih _ lines _
    | tag tag =>
      rw [TaggedText.feed, Item.feed, bind_assoc, map_bind, TaggedText.linesFrom,
        map_bind]
      refine congrArg (tag.token place >>= ·) (funext fun mark ↦ ?_)
      cases mark with
      | some token =>
        rw [pure_bind, Assembler.push_ofTokens]
        exact ih _ lines _
      | none =>
        have hrest := ih (place.after tag.text) (lines ++ [⟨begun⟩]) []
        simp only [List.append_assoc, List.singleton_append] at hrest
        simp only [Assembler.endLine_ofTokens, Bool.not_not, bind_assoc, pure_bind,
          map_bind, Functor.map_map]
        exact congrArg (Step.reportIf _ _ >>= ·) (funext fun _ ↦ hrest)

/-! ### Streams of tokens and ends -/

/-- The tokens behind the last end of a line. -/
def openTokens (stream : List (Option Token)) : List Token :=
  (stream.rtakeWhile Option.isSome).reduceOption

theorem reduceOption_map_some (tokens : List Token) :
    (tokens.map some).reduceOption = tokens := by
  simp [List.reduceOption]

theorem openTokens_map_some (tokens : List Token) : openTokens (tokens.map some) = tokens := by
  rw [openTokens, List.rtakeWhile_eq_self_iff.mpr (by simp), reduceOption_map_some]

/-- Ends of lines forget what was in front of them. -/
theorem openTokens_append_end (before after : List (Option Token)) :
    openTokens (before ++ none :: after) = openTokens after := by
  have hrev : (after.reverse ++ none :: before.reverse).takeWhile Option.isSome =
      after.reverse.takeWhile Option.isSome := by
    rw [List.takeWhile_append]
    split <;> rename_i hall
    · rw [List.takeWhile_cons_of_neg (by simp), List.append_nil]
      exact (List.takeWhile_prefix _).eq_of_length hall |>.symm
    · rfl
  simp only [openTokens, List.rtakeWhile, List.reverse_append, List.reverse_cons,
    List.append_assoc, List.singleton_append, hrev]

/-- A stream is a line of tokens alone, or a line with its end in front of a stream. -/
theorem stream_induction {motive : List (Option Token) → Prop}
    (tokens : ∀ tokens : List Token, motive (tokens.map some))
    (ended : ∀ (tokens : List Token) rest, motive rest →
      motive (tokens.map some ++ none :: rest)) (stream : List (Option Token)) :
    motive stream := by
  suffices h : ∀ begun : List Token, motive (begun.map some ++ stream) from h []
  induction stream with
  | nil =>
    intro begun
    rw [List.append_nil]
    exact tokens begun
  | cons mark rest ih =>
    intro begun
    cases mark with
    | none => exact ended begun rest (ih [])
    | some token =>
      have hmore := ih (begun ++ [token])
      rwa [List.map_append, List.append_assoc] at hmore

/-- There is a line for every end, and one more if a token stands behind the last. -/
theorem length_cutLines (stream : List (Option Token)) :
    (Outline.cutLines stream).length =
      stream.count none + if openTokens stream = [] then 0 else 1 := by
  induction stream using stream_induction with
  | tokens tokens =>
    have hcount : (tokens.map some).count none = 0 := List.count_eq_zero.mpr (by simp)
    rw [cutLines_map_some, openTokens_map_some, hcount]
    cases tokens <;> rfl
  | ended tokens rest ih =>
    have hcount : (tokens.map some).count none = 0 := List.count_eq_zero.mpr (by simp)
    rw [cutLines_append_end, openTokens_append_end, List.length_cons, ih, List.count_append, hcount,
      List.count_cons_self]
    omega

/-- The lines hold the tokens of the stream in their order. -/
theorem flatMap_tokens_cutLines (stream : List (Option Token)) :
    (Outline.cutLines stream).flatMap Line.tokens = stream.reduceOption := by
  induction stream using stream_induction with
  | tokens tokens =>
    rw [cutLines_map_some, reduceOption_map_some]
    cases tokens <;> simp
  | ended tokens rest ih =>
    rw [cutLines_append_end, List.flatMap_cons, ih, List.reduceOption_append,
      reduceOption_map_some, List.reduceOption_cons_of_none]

/-- The line of an end holds the tokens since the end before it. -/
theorem getElem?_cutLines (before after : List (Option Token)) :
    (Outline.cutLines (before ++ none :: after))[before.count none]? =
      some ⟨openTokens before⟩ := by
  induction before using stream_induction with
  | tokens tokens =>
    have hcount : (tokens.map some).count none = 0 := List.count_eq_zero.mpr (by simp)
    rw [cutLines_append_end, openTokens_map_some, hcount]
    rfl
  | ended tokens rest ih =>
    have hcount : (tokens.map some).count none = 0 := List.count_eq_zero.mpr (by simp)
    rw [List.append_assoc, List.cons_append, cutLines_append_end, openTokens_append_end,
      List.count_append, hcount, List.count_cons_self, Nat.zero_add, List.getElem?_cons_succ, ih]

/-- Behind the lines of the ends comes the line of the remaining tokens. -/
theorem drop_cutLines (stream : List (Option Token)) :
    (Outline.cutLines stream).drop (stream.count none) =
      if openTokens stream = [] then [] else [⟨openTokens stream⟩] := by
  induction stream using stream_induction with
  | tokens tokens =>
    have hcount : (tokens.map some).count none = 0 := List.count_eq_zero.mpr (by simp)
    rw [cutLines_map_some, openTokens_map_some, hcount]
    cases tokens <;> rfl
  | ended tokens rest ih =>
    have hcount : (tokens.map some).count none = 0 := List.count_eq_zero.mpr (by simp)
    rw [cutLines_append_end, openTokens_append_end, List.count_append, hcount,
      List.count_cons_self, Nat.zero_add, List.drop_succ_cons, ih]

/-! ### Texts and their marks -/

/-- A piece of a text is a tag that ends a line. -/
def Syntax.Item.endsLine : Item → Bool
  | .run _ => false
  | .tag t => t.id = some ['e'] ∨ t.id = some ['E']

/-- A piece of a text ends a line exactly if it means this. -/
theorem count_none_of_means {item : Item} {marks : List (Option Token)}
    (h : item.outline.Means marks) : marks.count none = if item.endsLine then 1 else 0 := by
  cases item with
  | run text =>
    obtain ⟨⟩ := h
    rw [runMarks_eq]
    exact List.count_eq_zero.mpr (by simp)
  | tag t =>
    have hother : ∀ word, t.id = some word → word ≠ ['e'] → word ≠ ['E'] →
        (Item.tag t).endsLine = false := by
      intro word hid hsmall hcapital
      simp [Item.endsLine, hid, hsmall, hcapital]
    cases h with
    | tag hmeans =>
      cases hmeans with
      | call hletter _ =>
        rcases hletter with hid | hid
        · rw [hother _ hid (by decide) (by decide)]
          rfl
        · rw [hother _ hid (by decide) (by decide)]
          rfl
      | newLine hletter =>
        rcases hletter with hid | hid
        · rw [hother _ hid (by decide) (by decide)]
          rfl
        · rw [hother _ hid (by decide) (by decide)]
          rfl
      | endLine hletter =>
        have hends : (Item.tag t).endsLine = true := decide_eq_true hletter
        rw [hends]
        rfl

/-- What a tag that ends a line means. -/
theorem eq_of_endsLine {item : Item} {marks : List (Option Token)} (h : item.outline.Means marks)
    (hends : item.endsLine = true) : marks = [none] := by
  have hcount := count_none_of_means h
  rw [if_pos hends] at hcount
  cases item with
  | run text => exact absurd hends nofun
  | tag t =>
    cases h with
    | @tag _ mark _ =>
      cases mark with
      | none => rfl
      | some token => exact absurd hcount (by simp)

/-- The tags of a text that end a line are the ends in its marks. -/
theorem count_none_flatten {items : TaggedText} {marks : List (List (Option Token))}
    (h : List.Forall₂ Outline.Item.Means items.outline marks) :
    marks.flatten.count none = items.countP Item.endsLine := by
  rw [TaggedText.outline, List.forall₂_map_left_iff] at h
  induction h with
  | nil => rfl
  | cons hfirst _ ih =>
    rw [List.flatten_cons, List.count_append, ih, List.countP_cons, count_none_of_means hfirst,
      Nat.add_comm]

/-- The pieces of a text at the beginning mean the marks at the beginning. -/
theorem means_take {items : TaggedText} {marks : List (List (Option Token))}
    (h : List.Forall₂ Outline.Item.Means items.outline marks) (n : Nat) :
    List.Forall₂ Outline.Item.Means (TaggedText.outline (items.take n)) (marks.take n) := by
  rw [TaggedText.outline, List.map_take]
  exact List.forall₂_take n h

/-- At a tag that ends a line the marks of a text are an end, behind those of the pieces in
front. -/
theorem flatten_eq_of_endsLine {items : TaggedText} {marks : List (List (Option Token))}
    (h : List.Forall₂ Outline.Item.Means items.outline marks) {i : Nat} {item : Item}
    (hitem : items[i]? = some item) (hends : item.endsLine = true) :
    ∃ later, marks.flatten = (marks.take i).flatten ++ none :: later := by
  obtain ⟨hlt, hget⟩ := List.getElem?_eq_some_iff.mp hitem
  have hdrop := List.forall₂_drop i h
  rw [TaggedText.outline, ← List.map_drop, List.drop_eq_getElem_cons hlt, hget,
    List.map_cons] at hdrop
  obtain ⟨first, later, hfirst, -, hmarks⟩ := List.forall₂_cons_left_iff.mp hdrop
  refine ⟨later.flatten, ?_⟩
  calc marks.flatten
      = (marks.take i ++ marks.drop i).flatten := by rw [List.take_append_drop]
    _ = (marks.take i).flatten ++ none :: later.flatten := by
      rw [hmarks, eq_of_endsLine hfirst hends, List.flatten_append, List.flatten_cons,
        List.singleton_append]

/-- Of the marks in front only the tokens behind their last end matter. -/
theorem openTokens_append (before after : List (Option Token)) :
    openTokens ((openTokens before).map some ++ after) = openTokens (before ++ after) := by
  induction before using stream_induction with
  | tokens tokens => rw [openTokens_map_some]
  | ended tokens rest ih =>
    rw [openTokens_append_end, ih, List.append_assoc, List.cons_append, openTokens_append_end]

/-- A piece of a text leaves the tokens behind the last end in the accumulator. -/
theorem value_feed_item {item : Item} {marks : List (Option Token)} (h : item.outline.Means marks)
    (place : Place) (lines : List Line) (begun : List Token) :
    ∃ ended, (item.feed place ⟨lines, .ofTokens begun⟩).value =
      some ⟨ended, .ofTokens (openTokens (begun.map some ++ marks))⟩ := by
  cases item with
  | run run =>
    obtain ⟨⟩ := h
    rw [feed_run, runMarks_eq, ← List.map_append, openTokens_map_some]
    exact ⟨lines, rfl⟩
  | tag tag =>
    cases h with
    | @tag _ mark hmeans =>
      have hvalue : (tag.token place).value = some mark := value_token_iff.mpr hmeans
      rw [Item.feed, Step.bind_of_value hvalue]
      cases mark with
      | some token =>
        have hopen : openTokens (begun.map some ++ [some token]) = begun ++ [token] := by
          rw [← openTokens_map_some (begun ++ [token]), List.map_append]
          rfl
        rw [hopen]
        exact ⟨lines, congrArg some (Assembler.push_ofTokens lines begun token)⟩
      | none =>
        have hopen : openTokens (begun.map some ++ [none]) = [] := openTokens_append_end _ []
        rw [hopen]
        dsimp only
        rw [Assembler.endLine_ofTokens]
        exact ⟨lines ++ [⟨begun⟩], rfl⟩

/-- Behind the pieces of a text the accumulator holds the tokens behind the last end. -/
theorem value_feed {items : TaggedText} {marks : List (List (Option Token))}
    (h : List.Forall₂ Outline.Item.Means items.outline marks) (place : Place) (lines : List Line)
    (begun : List Token) :
    ∃ ended, (items.feed place ⟨lines, .ofTokens begun⟩).value =
      some ⟨ended, .ofTokens (openTokens (begun.map some ++ marks.flatten))⟩ := by
  rw [TaggedText.outline, List.forall₂_map_left_iff] at h
  induction h generalizing place lines begun with
  | nil =>
    rw [List.flatten_nil, List.append_nil, openTokens_map_some]
    exact ⟨lines, rfl⟩
  | @cons item first rest marks hfirst _ ih =>
    obtain ⟨middle, hmiddle⟩ := value_feed_item hfirst place lines begun
    obtain ⟨ended, hended⟩ := ih (place.after item.text) middle _
    rw [openTokens_append, List.append_assoc] at hended
    exact ⟨ended, Step.value_bind_eq_some_iff.mpr ⟨_, hmiddle, hended⟩⟩

/-! ### Warnings -/

/-- The warnings among findings. -/
def warningsOf (findings : List Finding) : List Finding :=
  findings.filter (·.level = .warning)

theorem warningsOf_append (first second : List Finding) :
    warningsOf (first ++ second) = warningsOf first ++ warningsOf second :=
  List.filter_append first second

namespace Step

variable {α β : Type}

/-- What a step warns about. -/
def warned (step : Step α) : List Finding :=
  warningsOf step.findings

theorem warned_map (f : α → β) (step : Step α) : (f <$> step).warned = step.warned := rfl

/-- Assumes: the first of two steps has a value. What they warn about follows each other. -/
theorem warned_bind {first : Step α} {next : α → Step β} {a : α} (h : first.value = some a) :
    (first >>= next).warned = first.warned ++ (next a).warned := by
  rw [bind_of_value h]
  exact warningsOf_append first.findings (next a).findings

/-- A step without warnings warns about nothing. -/
theorem warned_eq_nil {step : Step α} (h : step.warnings = []) : step.warned = [] :=
  List.map_eq_nil_iff.mp h

end Step

/-- The pieces of a text that end a line without tokens, by their number. The text stands behind
given marks. -/
def emptyEnds (before : List (Option Token)) (items : TaggedText)
    (marks : List (List (Option Token))) : List Nat :=
  (List.range items.length).filter fun i ↦ items[i]?.any Item.endsLine &&
    (openTokens (before ++ (marks.take i).flatten)).isEmpty

theorem emptyEnds_congr {before other : List (Option Token)}
    (h : openTokens before = openTokens other) (items : TaggedText)
    (marks : List (List (Option Token))) :
    emptyEnds before items marks = emptyEnds other items marks := by
  unfold emptyEnds
  simp only [← openTokens_append before, ← openTokens_append other, h]

theorem emptyEnds_cons (before : List (Option Token)) (item : Item) (rest : TaggedText)
    (first : List (Option Token)) (marks : List (List (Option Token))) :
    emptyEnds before (item :: rest) (first :: marks) =
      (if item.endsLine && (openTokens before).isEmpty then [0] else []) ++
        (emptyEnds (before ++ first) rest marks).map (· + 1) := by
  unfold emptyEnds
  rw [List.length_cons, List.range_succ_eq_map, List.filter_cons, List.filter_map]
  simp only [List.take_zero, List.flatten_nil, List.append_nil, List.getElem?_cons_zero,
    Option.any_some]
  split_ifs with hempty
  · simp [Function.comp_def]
  · simp [Function.comp_def]

/-- The lines of a text behind tokens of the current line. The induction is on the pieces of the
text. Only the end of a line warns, where it stands. -/
theorem warned_linesFrom {items : TaggedText} {marks : List (List (Option Token))}
    (h : List.Forall₂ Outline.Item.Means items.outline marks) (place : Place)
    (begun : List Token) :
    (items.linesFrom place begun).warned = (emptyEnds (begun.map some) items marks).map
      fun i ↦ .emptyLine (place.after (TaggedText.text (items.take i))).position := by
  rw [TaggedText.outline, List.forall₂_map_left_iff] at h
  induction h generalizing place begun with
  | nil => rfl
  | @cons item first rest marks hfirst _ ih =>
    have hplace : ∀ i, (place.after (TaggedText.text ((item :: rest).take (i + 1)))).position =
        ((place.after item.text).after (TaggedText.text (rest.take i))).position := by
      intro i
      rw [List.take_succ_cons, ← Place.after_append]
      rfl
    rw [emptyEnds_cons, List.map_append, List.map_map]
    simp only [Function.comp_def, hplace]
    cases item with
    | run run =>
      obtain ⟨⟩ := hfirst
      rw [TaggedText.linesFrom, ih, List.map_append, runMarks_eq]
      rfl
    | tag tag =>
      cases hfirst with
      | @tag _ mark hmeans =>
        have hvalue : (tag.token place).value = some mark := value_token_iff.mpr hmeans
        have hends : (Item.tag tag).endsLine = mark.isNone := by
          have hcount := @count_none_of_means (.tag tag) [mark] (.tag hmeans)
          cases mark <;> cases hcase : (Item.tag tag).endsLine <;> simp_all
        rw [TaggedText.linesFrom, Step.warned_bind hvalue,
          Step.warned_eq_nil (warnings_token tag place), List.nil_append, hends]
        cases mark with
        | some token =>
          rw [ih, List.map_append]
          rfl
        | none =>
          rw [Step.warned_bind rfl, Step.warned_map, ih, openTokens_map_some]
          have hforget : emptyEnds (begun.map some ++ [none]) rest marks =
              emptyEnds [] rest marks :=
            emptyEnds_congr (openTokens_append_end (begun.map some) []) rest marks
          rw [hforget]
          cases begun <;> rfl

/-! ### The lines of a text -/

/-- Lines are put together from a text at a place, each piece of which has its marks: its token, if
it has one, or the end of a line. -/
structure Assembled (items : TaggedText) (place : Place) (marks : List (List (Option Token)))
    (lines : List Line) : Prop where
  /-- The lines are the tokens of the text, cut where a line ends. -/
  cut : lines = Outline.cutLines marks.flatten
  /-- There is a line for every tag that ends one, and one more if a token follows the last. -/
  length : lines.length =
    items.countP Item.endsLine + if openTokens marks.flatten = [] then 0 else 1
  /-- The lines hold all tokens, each once and in order. -/
  tokens : lines.flatMap Line.tokens = marks.flatten.reduceOption
  /-- The line of a tag that ends one holds the tokens since the tag before it that does. -/
  ended : ∀ i, items[i]?.any Item.endsLine → lines[(items.take i).countP Item.endsLine]? =
    some ⟨openTokens (marks.take i).flatten⟩
  /-- Behind the lines of these tags comes the line of the remaining tokens, if there are any. -/
  unterminated : lines.drop (items.countP Item.endsLine) =
    if openTokens marks.flatten = [] then [] else [⟨openTokens marks.flatten⟩]
  /-- There is a warning for every tag that ends a line without tokens, where the tag stands. -/
  warnings : ∀ channel, ((items.lines place).findings.map (·.toEvent channel)).filter
      (·.level = .warning) = (emptyEnds [] items marks).map fun i ↦ ⟨channel, .warning,
        "Empty line", some (place.after (TaggedText.text (items.take i))).position⟩
  /-- An assembler that is handed the pieces of the text ends up with the same lines, and on the
  way the same is reported. -/
  loop : items.lines place = do
    .report (.entered .tagText place.position)
    Assembler.finish <$> items.feed place .start
  /-- Behind any number of pieces the accumulator holds the tokens behind the last end. A line that
  is open has tokens. -/
  states : ∀ i, ∃ state, (TaggedText.feed place .start (items.take i)).value = some state ∧
    state.current = .ofTokens (openTokens (marks.take i).flatten) ∧ state.current ≠ .building []

/-- The lines of a text with its warnings, from the marks of its pieces. -/
theorem assembled_of_means {items : TaggedText} {marks : List (List (Option Token))}
    (h : List.Forall₂ Outline.Item.Means items.outline marks) (place : Place) :
    Assembled items place marks (Outline.cutLines marks.flatten) := by
  have hcount := count_none_flatten h
  refine ⟨rfl, ?_, flatMap_tokens_cutLines _, fun i hi ↦ ?_, ?_, fun channel ↦ ?_, ?_, fun i ↦ ?_⟩
  · rw [length_cutLines, hcount]
  · obtain ⟨item, hitem, hends⟩ := (Option.any_eq_true _ _).mp hi
    obtain ⟨later, hlater⟩ := flatten_eq_of_endsLine h hitem hends
    rw [hlater, ← count_none_flatten (means_take h i)]
    exact getElem?_cutLines _ later
  · rw [← hcount]
    exact drop_cutLines _
  · have hwarned : (items.lines place).warned = (emptyEnds [] items marks).map
        fun i ↦ .emptyLine (place.after (TaggedText.text (items.take i))).position := by
      rw [TaggedText.lines, Step.warned_bind rfl]
      exact warned_linesFrom h place []
    rw [List.filter_map]
    change ((items.lines place).warned).map (·.toEvent channel) = _
    rw [hwarned, List.map_map]
    rfl
  · have hfinish : Assembler.finish <$> items.feed place .start = items.linesFrom place [] :=
      (finish_feed items place [] []).trans (id_map _)
    rw [hfinish]
    rfl
  · obtain ⟨ended, hended⟩ := value_feed (means_take h i) place [] []
    exact ⟨_, hended, rfl, Accumulator.ofTokens_ne_building_nil _⟩

/-- Assumes: the tags of a text are valid. The text has lines, and these are put together from the
marks of its pieces. -/
theorem lines_assembled {items : TaggedText} (hvalid : items.outline.Valid) (place : Place) :
    ∃ marks lines, List.Forall₂ Outline.Item.Means items.outline marks ∧
      (items.lines place).value = some lines ∧ Assembled items place marks lines := by
  obtain ⟨lines, marks, hmarks, rfl⟩ := Outline.exists_text_means_iff.mpr hvalid
  exact ⟨marks, _, hmarks, value_lines_iff.mpr ⟨marks, hmarks, rfl⟩,
    assembled_of_means hmarks place⟩

/-- A line with a break, two ends without tokens, with nothing but a line ending between them, and a
call behind the last end. -/
theorem lines_assembled_ends :
    ∃ items : TaggedText, items.text = "a<n>b<e><E>\r\n<e>c<F 0x10 -1>".toList ∧
      items.outline.Valid ∧
      (∃ marks lines, List.Forall₂ Outline.Item.Means items.outline marks ∧
        (items.lines .start).value = some lines ∧ Assembled items .start marks lines) ∧
      (items.lines .start).value = some [⟨[.text "a", .newLine, .text "b"]⟩, ⟨[]⟩, ⟨[]⟩,
        ⟨[.text "c", .function 16 (-1) []]⟩] ∧
      (items.lines .start).warned = [.emptyLine ⟨1, 9⟩, .emptyLine ⟨2, 1⟩] := by
  let items : TaggedText := [.run ['a'], .tag ⟨[], some ['n'], [], []⟩, .run ['b'],
    .tag ⟨[], some ['e'], [], []⟩, .tag ⟨[], some ['E'], [], []⟩, .run ['\r', '\n'],
    .tag ⟨[], some ['e'], [], []⟩, .run ['c'],
    .tag ⟨[], some ['F'], [⟨[' '], ['0', 'x', '1', '0']⟩, ⟨[' '], ['-', '1']⟩], []⟩]
  have hvalue : (items.lines .start).value = some [⟨[.text "a", .newLine, .text "b"]⟩, ⟨[]⟩, ⟨[]⟩,
      ⟨[.text "c", .function 16 (-1) []]⟩] := by cbv
  have hvalid : items.outline.Valid :=
    Outline.exists_text_means_iff.mp ⟨_, value_lines_iff.mp hvalue⟩
  exact ⟨items, rfl, hvalid, lines_assembled hvalid .start, hvalue, by cbv⟩

end DialogueScript
