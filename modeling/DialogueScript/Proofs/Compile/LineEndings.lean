import DialogueScript.Proofs.Compile.Forms
import DialogueScript.Proofs.Compile.Moved
import DialogueScript.Proofs.Syntax.LineEndings

/-!
# Compiling paired sources

What a compilation of a tree gives and reports depends on the positions of its parts and on their
contents without line endings. A tree and its paired form have both in common, so that every step on
the one is the same step on the other, in lines, windows and documents (`linesFrom_pairFeeds`,
`compileWindow_pairFeeds`, `script_pairFeeds`). Together with the reader of the language, which
treats the two alike, this makes sources that differ in their line endings interchangeable
(`line_endings_interchangeable`).
-/

set_option autoImplicit false
set_option relaxedAutoImplicit false

namespace DialogueScript

open Syntax

/-! ### Positions behind paired texts -/

/-- Behind a text with tags one stands where one stands behind its paired form. -/
theorem after_text_pairFeeds (items : TaggedText) (p : Position) :
    p.after items.pairFeeds.text = p.after items.text := by
  induction items generalizing p with
  | nil => rfl
  | cons item rest ih =>
    change p.after (item.pairFeeds.text ++ TaggedText.text (TaggedText.pairFeeds rest)) =
      p.after (item.text ++ TaggedText.text rest)
    rw [Position.after_append, Position.after_append, ih]
    cases item with
    | run text => exact congrArg (Position.after · _) (p.after_pairFeeds text)
    | tag t => rfl

theorem after_speaker_pairFeeds (speaker : Option TaggedText) (p : Position) :
    p.after (((speaker.map TaggedText.pairFeeds).map speakerText).getD []) =
      p.after ((speaker.map speakerText).getD []) := by
  cases speaker with
  | none => rfl
  | some name =>
    change p.after ('[' :: (name.pairFeeds.text ++ [']'])) = p.after ('[' :: (name.text ++ [']']))
    rw [Position.after_cons, Position.after_cons, Position.after_append, Position.after_append,
      after_text_pairFeeds]

theorem after_header_pairFeeds (window : Dialog) (p : Position) :
    p.after window.pairFeeds.header = p.after window.header := by
  simp only [Dialog.pairFeeds, Dialog.header, Dialog.beforeSpeaker, Dialog.beforeLabel,
    Position.after_append, after_speaker_pairFeeds]

theorem after_window_pairFeeds (window : Syntax.Window) (p : Position) :
    p.after window.pairFeeds.text = p.after window.text := by
  cases window with
  | dialog w =>
    change p.after (w.pairFeeds.header ++ w.body.pairFeeds.text) = p.after (w.header ++ w.body.text)
    rw [Position.after_append, after_header_pairFeeds, after_text_pairFeeds, Position.after_append]
  | selection w =>
    change p.after (w.header ++ w.body.pairFeeds.text) = p.after (w.header ++ w.body.text)
    rw [Position.after_append, after_text_pairFeeds, Position.after_append]

/-! ### Lines of paired texts -/

variable {place other : Place}

/-- Positions stay the same behind texts that lead to the same position. -/
theorem position_after_congr {first second : List Char} (h : other.position = place.position)
    (htext : ∀ p : Position, p.after first = p.after second) :
    (other.after first).position = (place.after second).position := by
  rw [Place.position_after, Place.position_after, h, htext]

/-- A tag means the same at places with one position. -/
theorem token_congr (tag : Tag) (h : other.position = place.position) :
    tag.token other = tag.token place := by
  rw [moved_token tag (Place.Moved.start other), moved_token tag (Place.Moved.start place), h]

theorem runTokens_pairFeeds (run : List Char) : runTokens (pairFeeds run) = runTokens run := by
  rw [runTokens, stripNewlines_pairFeeds, ← runTokens]

/-- Assumes: places with one position. From there a text and its paired form have the same lines,
with the same reports. -/
theorem linesFrom_pairFeeds (items : TaggedText) (begun : List Token)
    (h : other.position = place.position) :
    items.pairFeeds.linesFrom other begun = items.linesFrom place begun := by
  induction items generalizing place other begun with
  | nil => rfl
  | cons item rest ih =>
    cases item with
    | run text =>
      have hbehind := position_after_congr h (Position.after_pairFeeds · text)
      change TaggedText.linesFrom (other.after (pairFeeds text))
          (begun ++ runTokens (pairFeeds text)) (TaggedText.pairFeeds rest) =
        TaggedText.linesFrom (place.after text) (begun ++ runTokens text) rest
      rw [runTokens_pairFeeds, ih _ hbehind]
    | tag t =>
      have hbehind : (other.after t.text).position = (place.after t.text).position :=
        position_after_congr h fun _ ↦ rfl
      change TaggedText.linesFrom other begun (.tag t :: TaggedText.pairFeeds rest) = _
      rw [TaggedText.linesFrom, TaggedText.linesFrom, token_congr t h]
      refine bind_congr fun mark ↦ ?_
      cases mark with
      | some token => exact ih _ hbehind
      | none =>
        dsimp only
        rw [h, ih _ hbehind]

theorem lines_pairFeeds (items : TaggedText) (h : other.position = place.position) :
    items.pairFeeds.lines other = items.lines place := by
  rw [TaggedText.lines, TaggedText.lines, h, linesFrom_pairFeeds items [] h]

/-! ### Windows -/

theorem optionalSpeaker_pairFeeds (speaker : Option TaggedText)
    (h : other.position = place.position) :
    optionalSpeaker (speaker.map TaggedText.pairFeeds) other = optionalSpeaker speaker place := by
  cases speaker with
  | none => rfl
  | some name =>
    have htext : (speakerTextPlace other).position = (speakerTextPlace place).position :=
      position_after_congr h fun _ ↦ rfl
    rw [Option.map_some, optionalSpeaker, optionalSpeaker, speakerOf, speakerOf, h]
    dsimp only
    rw [lines_pairFeeds name htext, htext]

/-- Assumes: places with one position. From there a window and its paired form have the same
compiled form, with the same reports. -/
theorem compileWindow_pairFeeds (window : Syntax.Window) (h : other.position = place.position) :
    compileWindow ⟨other, window.pairFeeds⟩ = compileWindow ⟨place, window⟩ := by
  cases window with
  | dialog w =>
    have hspeaker : optionalSpeaker w.pairFeeds.speaker (w.pairFeeds.speakerPlace other) =
        optionalSpeaker w.speaker (w.speakerPlace place) :=
      optionalSpeaker_pairFeeds w.speaker (position_after_congr h fun _ ↦ rfl)
    have hbody : w.pairFeeds.body.lines (w.pairFeeds.bodyPlace other) =
        w.body.lines (w.bodyPlace place) :=
      lines_pairFeeds w.body (position_after_congr h (after_header_pairFeeds w))
    refine congrArg (DialogueScript.Window.dialog <$> ·) ?_
    rw [Dialog.compile, Dialog.compile, h]
    refine bind_congr fun _ ↦ bind_congr fun identifier ↦ ?_
    rw [hspeaker, hbody]
  | selection w =>
    have hbody : w.pairFeeds.body.lines (w.pairFeeds.bodyPlace other) =
        w.body.lines (w.bodyPlace place) :=
      lines_pairFeeds w.body (position_after_congr h fun _ ↦ rfl)
    refine congrArg (DialogueScript.Window.selection <$> ·) ?_
    rw [Selection.compile, Selection.compile, h]
    refine bind_congr fun _ ↦ bind_congr fun identifier ↦ ?_
    rw [hbody]

/-- Assumes: places with one position. From there windows and their paired forms have the same
compiled forms, with the same reports. -/
theorem windows_pairFeeds (windows : List Syntax.Window) (h : other.position = place.position) :
    Step.forEach compileWindow (locate Window.text other (windows.map Window.pairFeeds)) =
      Step.forEach compileWindow (locate Window.text place windows) := by
  induction windows generalizing place other with
  | nil => rfl
  | cons window rest ih =>
    have hbehind := position_after_congr h (after_window_pairFeeds window)
    rw [List.map_cons, locate, locate, Step.forEach, Step.forEach, compileWindow_pairFeeds window h,
      ih hbehind]

/-! ### Documents and sources -/

theorem script_pairFeeds (document : Document) (version : FormatVersion) :
    document.pairFeeds.script version = document.script version := by
  have hfirst : document.pairFeeds.windowsPlace.position = document.windowsPlace.position :=
    Position.after_pairFeeds .start document.blanks
  have hwindows := windows_pairFeeds document.windows hfirst
  rw [Document.script, Document.script]
  cases hdocument : document.windows with
  | nil =>
    have hnone : document.pairFeeds.windows = [] := by rw [Document.pairFeeds, hdocument]; rfl
    rw [hnone]
  | cons window rest =>
    have hsome : document.pairFeeds.windows = window.pairFeeds :: rest.map Window.pairFeeds := by
      rw [Document.pairFeeds, hdocument, List.map_cons]
    rw [hdocument, List.map_cons] at hwindows
    rw [hsome]
    dsimp only
    rw [hwindows]

/-- A mark of byte order is none of the characters of a pair. -/
theorem dropMark_pairFeeds (text : List Char) :
    Utf8.dropMark (pairFeeds text) = pairFeeds (Utf8.dropMark text) := by
  cases text with
  | nil => rfl
  | cons c rest =>
    by_cases hc : c = Utf8.byteOrderMark
    · subst hc
      rw [pairFeeds_cons (by decide) (by decide), Utf8.dropMark, Utf8.dropMark, if_pos rfl,
        if_pos rfl]
    · obtain ⟨others, hothers⟩ := List.head?_eq_some_iff.mp (head?_pairFeeds_cons c rest)
      have hfirst : (if c = '\n' then '\r' else c) ≠ Utf8.byteOrderMark := by
        split_ifs
        · decide
        · exact hc
      rw [Utf8.dropMark, if_neg hc, hothers, Utf8.dropMark, if_neg hfirst]

theorem compileText_pairFeeds (version : FormatVersion) (text : List Char) :
    compileText version (pairFeeds text) = compileText version text := by
  rw [compileText, compileText, dropMark_pairFeeds, parse_pairFeeds]
  cases parse (Utf8.dropMark text) with
  | error error => rfl
  | ok document =>
    dsimp only [Except.map]
    rw [script_pairFeeds]

/-- Nobody can tell a text from the text with its line feeds paired, nor their bytes: what they
compile to is the same, and so are all events, with their messages and positions. -/
theorem line_endings_interchangeable (text : List Char) :
    (∀ version, tryCompile version (.text (pairFeeds text)) = tryCompile version (.text text)) ∧
      Interchangeable (.text (pairFeeds text)) (.text text) ∧
      Interchangeable (.bytes (Utf8.encode (pairFeeds text))) (.bytes (Utf8.encode text)) := by
  have htext : ∀ version, compileText version (pairFeeds text) = compileText version text :=
    (compileText_pairFeeds · text)
  have hbytes : ∀ version, compileBytes version (Utf8.encode (pairFeeds text)) =
      compileBytes version (Utf8.encode text) := by
    intro version
    rw [compileBytes_encode, compileBytes_encode, dropMark_pairFeeds, compileText_pairFeeds]
  refine ⟨htext, .of_eq (fun version ↦ ?_) htext, .of_eq (fun version ↦ ?_) hbytes⟩
  · rw [compile, compile, htext]
  · rw [compile, compile, hbytes]

end DialogueScript
