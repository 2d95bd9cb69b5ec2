import DialogueScript.Proofs.Syntax.Reading
import DialogueScript.Proofs.Text.LineEndings

/-!
# Parsers on paired sources

A parser that treats the two forms of a line ending alike does on a paired source what it does on
the source itself. It tries the same rules at the same characters, fails where it failed, and reads
the paired forms of the texts that it read. `Parser.Mirrors` says so of two parsers, and is closed
under the combinators.

A cursor that stands between the halves of a pair has no counterpart, and no parser stops there:
either its characters are no line endings, or it reads them all.

The rules expected at the furthest failure are found by comparing offsets. Pairing keeps offsets in
their order, so that it moves the furthest failure and changes nothing else of it
(`follow_relocate`).
-/

set_option autoImplicit false
set_option relaxedAutoImplicit false

namespace DialogueScript.Syntax

/-! ### Trails -/

/-- A trail whose rules were tried elsewhere. -/
def Trail.relocate (move : Nat → Nat) : Trail → Trail
  | .empty => .empty
  | .tried rule offset failed inner later =>
    .tried rule (move offset) failed (inner.relocate move) (later.relocate move)

theorem relocate_append (move : Nat → Nat) (first second : Trail) :
    (first ++ second).relocate move = first.relocate move ++ second.relocate move := by
  induction first with
  | empty => rfl
  | tried rule offset failed inner later _ ih =>
    rw [Trail.tried_append, Trail.relocate, ih, Trail.relocate, Trail.tried_append]

/-- A furthest failure elsewhere. -/
def Furthest.relocate (move : Nat → Nat) (seen : Furthest) : Furthest :=
  ⟨move seen.offset, seen.rules⟩

section Order

variable {move : Nat → Nat} (hmove : StrictMono move)

include hmove

theorem count_relocate (seen : Furthest) (offset : Nat) :
    (seen.relocate move).count (move offset) = seen.count offset := by
  simp only [Furthest.count, Furthest.relocate, hmove.injective.eq_iff]

theorem close_relocate (rule : Rule) (offset : Nat) (before inner : Furthest) :
    Furthest.close rule (move offset) (before.relocate move) (inner.relocate move) =
      (Furthest.close rule offset before inner).relocate move := by
  have hlt : move offset < (inner.relocate move).offset ↔ offset < inner.offset := hmove.lt_iff_lt
  have heq : move offset = (inner.relocate move).offset ↔ offset = inner.offset :=
    hmove.injective.eq_iff
  simp only [Furthest.close, count_relocate hmove, hlt, heq]
  split_ifs <;> rfl

/-- Assumes: offsets are moved in their order. The furthest failure of a trail is moved with it. -/
theorem follow_relocate (seen : Furthest) (trail : Trail) :
    (seen.relocate move).follow (trail.relocate move) = (seen.follow trail).relocate move := by
  induction trail generalizing seen with
  | empty => rfl
  | tried rule offset failed inner later ihInner ihLater =>
    rw [Trail.relocate, Furthest.follow, Furthest.follow, ihInner, close_relocate hmove,
      ← apply_ite (Furthest.relocate move), ihLater]

end Order

/-! ### Cursors -/

/-- A cursor stands in a source, and not inside a pair. -/
def Cursor.StandsIn (source : List Char) (cursor : Cursor) : Prop :=
  ∃ before, source = before ++ cursor.rest ∧ cursor.offset = before.length ∧
    CutsNoPair before cursor.rest

/-- Where a cursor of a source stands once the source is paired. -/
def Cursor.paired (source : List Char) (cursor : Cursor) : Cursor :=
  ⟨pairedOffset source cursor.offset, pairFeeds cursor.rest⟩

namespace Cursor.StandsIn

variable {source : List Char} {cursor other : Cursor}

theorem start (source : List Char) : Cursor.StandsIn source ⟨0, source⟩ :=
  ⟨[], rfl, rfl, CutsNoPair.of_last (by simp)⟩

/-- Assumes: a text stands behind a cursor and is not cut off inside a pair. Skipping it on the
paired source is skipping its paired form. -/
theorem skip (h : cursor.StandsIn source) {text rest : List Char}
    (hrest : cursor.rest = text ++ rest) (hcut : CutsNoPair text rest) :
    (cursor.skip text.length).StandsIn source ∧
      (cursor.skip text.length).paired source =
        (cursor.paired source).skip (pairFeeds text).length := by
  obtain ⟨before, hsource, hoffset, hbefore⟩ := h
  rw [hrest] at hsource hbefore
  have hdrop : (cursor.skip text.length).rest = rest := by
    rw [Cursor.skip, hrest, List.drop_left]
  have hcutText : CutsNoPair before text := by
    cases text with
    | nil => exact CutsNoPair.of_head (by simp)
    | cons c tail => exact hbefore
  refine ⟨⟨before ++ text, ?_, ?_, ?_⟩, ?_⟩
  · rw [hdrop, hsource, List.append_assoc]
  · rw [Cursor.skip, hoffset, List.length_append]
  · rw [hdrop]
    exact hbefore.append hcut
  · have hfront : pairedOffset source cursor.offset = (pairFeeds before).length := by
      rw [hoffset, hsource, pairedOffset_append]
    have hbehind : pairedOffset source (cursor.offset + text.length) =
        (pairFeeds before).length + (pairFeeds text).length := by
      rw [hoffset, hsource, ← List.append_assoc, ← List.length_append, pairedOffset_append,
        pairFeeds_append hcutText, List.length_append]
    rw [Cursor.paired, Cursor.paired, hdrop, Cursor.skip, Cursor.skip, hbehind, hfront, hrest,
      pairFeeds_append hcut, List.drop_left]

/-- One cursor is ahead of another exactly if it is on the paired source. -/
theorem length_rest_lt_iff (h : cursor.StandsIn source) (hother : other.StandsIn source) :
    (other.paired source).rest.length < (cursor.paired source).rest.length ↔
      other.rest.length < cursor.rest.length := by
  change (pairFeeds other.rest).length < (pairFeeds cursor.rest).length ↔ _
  have hlength : ∀ {c : Cursor}, c.StandsIn source →
      c.offset + c.rest.length = source.length ∧
        pairedOffset source c.offset + (pairFeeds c.rest).length = (pairFeeds source).length := by
    rintro c ⟨before, rfl, hoffset, hcut⟩
    rw [hoffset, pairedOffset_append, pairFeeds_append hcut, List.length_append,
      List.length_append]
    exact ⟨rfl, rfl⟩
  have horder := (strictMono_pairedOffset source).lt_iff_lt (a := cursor.offset) (b := other.offset)
  have hcursor := hlength h
  have hbehind := hlength hother
  omega

end Cursor.StandsIn

/-! ### Parsers -/

namespace Parser

variable {α β γ δ : Type} {source : List Char}

/-- Behind a parser that fails nothing is tried. -/
theorem bind_of_none {first : Parser α} {next : α → Parser β} {cursor : Cursor} {trail : Trail}
    (h : first cursor = ⟨trail, none⟩) : (first >>= next) cursor = ⟨trail, none⟩ := by
  change Parser.bind first next cursor = _
  rw [Parser.bind, h]

/-- Behind a parser that succeeds the next one goes on with its value. -/
theorem bind_of_some {first : Parser α} {next : α → Parser β} {cursor : Cursor} {trail : Trail}
    {found : α × Cursor} (h : first cursor = ⟨trail, some found⟩) :
    (first >>= next) cursor =
      ⟨trail ++ (next found.1 found.2).trail, (next found.1 found.2).result⟩ := by
  change Parser.bind first next cursor = _
  rw [Parser.bind, h]

/-- A nonempty run is the longest run of the class, where that is not empty. -/
theorem span1_apply (ok : Char → Bool) (cursor : Cursor) :
    span1 ok cursor =
      ⟨.empty, if cursor.rest.takeWhile ok = [] then none
        else some (cursor.rest.takeWhile ok,
          cursor.skip (cursor.rest.takeWhile ok).length)⟩ := by
  obtain ⟨offset, rest⟩ := cursor
  cases rest with
  | nil => exact bind_of_none rfl
  | cons c rest =>
    by_cases hc : ok c = true
    · have hone : one ok ⟨offset, c :: rest⟩ = ⟨.empty, some (c, ⟨offset + 1, rest⟩)⟩ := by
        simp [one, hc, Cursor.skip]
      have hspan : (span ok >>= fun tail ↦ pure (c :: tail)) ⟨offset + 1, rest⟩ =
          ⟨.empty, some (c :: rest.takeWhile ok,
            Cursor.skip ⟨offset + 1, rest⟩ (rest.takeWhile ok).length)⟩ := rfl
      rw [span1, bind_of_some hone, hspan]
      simp [hc, Cursor.skip]
      omega
    · have hone : one ok ⟨offset, c :: rest⟩ = ⟨.empty, none⟩ := by simp [one, hc]
      rw [span1, bind_of_none hone]
      simp [hc]

/-- A parser answers on the paired source as another does on the source. From every cursor of the
source it leaves the same trail, and it reads the same, with a value that is given by a function. -/
def Mirrors (source : List Char) (give : α → β) (parser : Parser α) (mirror : Parser β) : Prop :=
  ∀ cursor, cursor.StandsIn source →
    mirror (cursor.paired source) =
        ⟨(parser cursor).trail.relocate (pairedOffset source),
          (parser cursor).result.map fun found ↦ (give found.1, found.2.paired source)⟩ ∧
      ∀ value behind, (parser cursor).result = some (value, behind) → behind.StandsIn source

namespace Mirrors

variable {give : α → β} {parser : Parser α} {mirror : Parser β}

/-- The value of a mirror may be given in another way that comes to the same. -/
theorem congr {other : α → β} (h : Mirrors source give parser mirror)
    (hgive : ∀ cursor value behind, (parser cursor).result = some (value, behind) →
      give value = other value) : Mirrors source other parser mirror := by
  intro cursor hcursor
  obtain ⟨heq, hbehind⟩ := h cursor hcursor
  refine ⟨?_, hbehind⟩
  rw [heq]
  cases hresult : (parser cursor).result with
  | none => rfl
  | some found => rw [Option.map_some, Option.map_some, hgive cursor found.1 found.2 hresult]

theorem pure (give : α → β) (value : α) :
    Mirrors source give (pure value) (pure (give value)) := by
  intro cursor hcursor
  refine ⟨rfl, ?_⟩
  rintro _ _ ⟨⟩
  exact hcursor

theorem bind {giveNext : γ → δ} {next : α → Parser γ} {nextMirror : β → Parser δ}
    (h : Mirrors source give parser mirror)
    (hnext : ∀ value, Mirrors source giveNext (next value) (nextMirror (give value))) :
    Mirrors source giveNext (parser >>= next) (mirror >>= nextMirror) := by
  intro cursor hcursor
  obtain ⟨heq, hbehind⟩ := h cursor hcursor
  cases houtcome : parser cursor with
  | mk trail result =>
    rw [houtcome] at heq hbehind
    cases result with
    | none =>
      rw [bind_of_none houtcome, bind_of_none heq]
      exact ⟨rfl, by simp⟩
    | some found =>
      obtain ⟨hnextEq, hlast⟩ := hnext found.1 found.2 (hbehind _ _ rfl)
      rw [bind_of_some houtcome, bind_of_some heq, hnextEq]
      refine ⟨?_, hlast⟩
      dsimp only
      rw [relocate_append]

theorem orElse {second : Parser α} {secondMirror : Parser β}
    (h : Mirrors source give parser mirror) (hsecond : Mirrors source give second secondMirror) :
    Mirrors source give (orElse parser second) (orElse mirror secondMirror) := by
  intro cursor hcursor
  obtain ⟨heq, hbehind⟩ := h cursor hcursor
  obtain ⟨hsecondEq, hlast⟩ := hsecond cursor hcursor
  unfold Parser.orElse
  rw [heq]
  cases houtcome : parser cursor with
  | mk trail result =>
    rw [houtcome] at hbehind
    cases result with
    | none =>
      refine ⟨?_, hlast⟩
      dsimp only [Option.map_none]
      rw [hsecondEq, relocate_append]
    | some found => exact ⟨rfl, hbehind⟩

theorem optional (h : Mirrors source give parser mirror) :
    Mirrors source (Option.map give) (optional parser) (optional mirror) := by
  intro cursor hcursor
  obtain ⟨heq, hbehind⟩ := h cursor hcursor
  unfold Parser.optional
  rw [heq]
  cases houtcome : parser cursor with
  | mk trail result =>
    rw [houtcome] at hbehind
    cases result with
    | none =>
      refine ⟨rfl, ?_⟩
      rintro _ _ ⟨⟩
      exact hcursor
    | some found =>
      refine ⟨rfl, ?_⟩
      rintro _ _ ⟨⟩
      exact hbehind _ _ rfl

theorem attempt (rule : Rule) (h : Mirrors source give parser mirror) :
    Mirrors source give (attempt rule parser) (attempt rule mirror) := by
  intro cursor hcursor
  obtain ⟨heq, hbehind⟩ := h cursor hcursor
  refine ⟨?_, hbehind⟩
  unfold Parser.attempt
  rw [heq]
  cases parser cursor with
  | mk trail result => cases result <;> rfl

/-- A repetition is mirrored round by round. Both go on under the same condition, since pairing
keeps what is ahead of a cursor ahead of it. -/
theorem many (h : Mirrors source give parser mirror) :
    Mirrors source (List.map give) (many parser) (many mirror) := by
  intro cursor hcursor
  induction hlength : cursor.rest.length using Nat.strong_induction_on generalizing cursor with
  | _ length ih =>
    obtain ⟨heq, hbehind⟩ := h cursor hcursor
    rw [Parser.many.eq_def mirror, Parser.many.eq_def parser, heq]
    cases houtcome : parser cursor with
    | mk trail result =>
      rw [houtcome] at hbehind
      cases result with
      | none =>
        refine ⟨rfl, ?_⟩
        rintro _ _ ⟨⟩
        exact hcursor
      | some found =>
        obtain ⟨value, behind⟩ := found
        have hstands := hbehind value behind rfl
        dsimp only [Option.map_some]
        by_cases hlt : behind.rest.length < cursor.rest.length
        · obtain ⟨hmany, hlast⟩ := ih behind.rest.length (hlength ▸ hlt) behind hstands rfl
          rw [if_pos ((hcursor.length_rest_lt_iff hstands).mpr hlt), if_pos hlt, hmany]
          refine ⟨?_, ?_⟩
          · dsimp only
            rw [relocate_append, Option.map_map, Option.map_map]
            rfl
          · intro values last hresult
            obtain ⟨rest, hrest, hpair⟩ := Option.map_eq_some_iff.mp hresult
            obtain ⟨_, rfl⟩ := Prod.mk.inj hpair
            exact hlast rest.1 rest.2 hrest
        · rw [if_neg (mt (hcursor.length_rest_lt_iff hstands).mp hlt), if_neg hlt]
          refine ⟨rfl, ?_⟩
          rintro _ _ ⟨⟩
          exact hcursor

/-! ### Characters and words -/

/-- The end of the source is the end of its paired form. -/
theorem atEnd : Mirrors source id atEnd atEnd := by
  intro cursor hcursor
  have hempty : (cursor.paired source).rest = [] ↔ cursor.rest = [] := pairFeeds_eq_nil_iff
  unfold Parser.atEnd
  by_cases hrest : cursor.rest = []
  · rw [if_pos (hempty.mpr hrest), if_pos hrest]
    refine ⟨rfl, ?_⟩
    rintro _ _ ⟨⟩
    exact hcursor
  · rw [if_neg (mt hempty.mp hrest), if_neg hrest]
    exact ⟨rfl, by simp⟩

/-- Assumes: a class that holds both characters of a pair or none of them. A run of the class is
mirrored by a run of the class. -/
theorem span {ok : Char → Bool} (hok : ok '\r' = ok '\n') :
    Mirrors source pairFeeds (span ok) (span ok) := by
  intro cursor hcursor
  obtain ⟨hstands, hskip⟩ := hcursor.skip List.takeWhile_append_dropWhile.symm
    (cutsNoPair_takeWhile hok cursor.rest)
  have hrun : (cursor.paired source).rest.takeWhile ok = pairFeeds (cursor.rest.takeWhile ok) :=
    takeWhile_pairFeeds hok cursor.rest
  unfold Parser.span
  rw [hrun]
  refine ⟨?_, ?_⟩
  · dsimp only [Option.map_some]
    rw [hskip]
    rfl
  · rintro _ _ ⟨⟩
    exact hstands

/-- Assumes: a class that holds both characters of a pair or none of them. A nonempty run of the
class is mirrored by a nonempty run of the class. -/
theorem span1 {ok : Char → Bool} (hok : ok '\r' = ok '\n') :
    Mirrors source pairFeeds (span1 ok) (span1 ok) := by
  intro cursor hcursor
  have hrun : (cursor.paired source).rest.takeWhile ok = pairFeeds (cursor.rest.takeWhile ok) :=
    takeWhile_pairFeeds hok cursor.rest
  rw [span1_apply, span1_apply, hrun]
  by_cases hempty : cursor.rest.takeWhile ok = []
  · rw [if_pos hempty, if_pos (pairFeeds_eq_nil_iff.mpr hempty)]
    exact ⟨rfl, by simp⟩
  · obtain ⟨hstands, hskip⟩ := hcursor.skip List.takeWhile_append_dropWhile.symm
      (cutsNoPair_takeWhile hok cursor.rest)
    rw [if_neg hempty, if_neg (mt pairFeeds_eq_nil_iff.mp hempty), ← hskip]
    refine ⟨rfl, ?_⟩
    rintro _ _ ⟨⟩
    exact hstands

/-- Assumes: a class without the characters of a pair. A character of the class is mirrored by
itself. -/
theorem one {ok : Char → Bool} (hreturn : ok '\r' = false) (hfeed : ok '\n' = false) :
    Mirrors source id (one ok) (one ok) := by
  intro cursor hcursor
  have hrest : (cursor.paired source).rest = pairFeeds cursor.rest := rfl
  unfold Parser.one
  rw [hrest]
  cases hchars : cursor.rest with
  | nil => exact ⟨rfl, by simp⟩
  | cons c rest =>
    by_cases hc : ok c = true
    · have hneReturn : c ≠ '\r' := fun h ↦ by simp [h, hreturn] at hc
      have hneFeed : c ≠ '\n' := fun h ↦ by simp [h, hfeed] at hc
      have hcut : CutsNoPair [c] rest := CutsNoPair.of_last (by simpa using hneReturn)
      obtain ⟨hstands, hskip⟩ := hcursor.skip hchars hcut
      rw [pairFeeds_eq_self (by simpa using hneFeed.symm)] at hskip
      rw [pairFeeds_cons hneReturn hneFeed]
      dsimp only
      rw [if_pos hc, if_pos hc]
      refine ⟨congrArg (fun behind ↦ Outcome.mk .empty (some (c, behind))) hskip.symm, ?_⟩
      rintro _ _ ⟨⟩
      exact hstands
    · obtain ⟨others, hothers⟩ := List.head?_eq_some_iff.mp (head?_pairFeeds_cons c rest)
      have hother : ok (if c = '\n' then '\r' else c) ≠ true := by
        split_ifs
        · simp [hreturn]
        · exact hc
      rw [hothers]
      dsimp only
      rw [if_neg hc, if_neg hother]
      exact ⟨rfl, by simp⟩

/-- Assumes: a character that is none of a pair. It is mirrored by itself. -/
theorem char {c : Char} (hreturn : c ≠ '\r') (hfeed : c ≠ '\n') :
    Mirrors source id (char c) (char c) := by
  have hone : Mirrors source id (Parser.one (· == c)) (Parser.one (· == c)) :=
    one (beq_false_of_ne hreturn.symm) (beq_false_of_ne hfeed.symm)
  exact hone.bind fun _ ↦ Mirrors.pure id ()

/-- Assumes: a class without the characters of a pair. A run of the class is mirrored by itself. -/
theorem span_self {ok : Char → Bool} (hreturn : ok '\r' = false) (hfeed : ok '\n' = false) :
    Mirrors source id (Parser.span ok) (Parser.span ok) := by
  refine (span (hreturn.trans hfeed.symm)).congr fun cursor text behind hresult ↦ ?_
  refine pairFeeds_eq_self fun hmem ↦ ?_
  have hok := (reads_of_span hresult).1 '\n' hmem
  exact Bool.noConfusion (hfeed.symm.trans hok)

/-- Assumes: a class without the characters of a pair. A nonempty run of the class is mirrored by
itself. -/
theorem span1_self {ok : Char → Bool} (hreturn : ok '\r' = false) (hfeed : ok '\n' = false) :
    Mirrors source id (Parser.span1 ok) (Parser.span1 ok) := by
  refine (span1 (hreturn.trans hfeed.symm)).congr fun cursor text behind hresult ↦ ?_
  refine pairFeeds_eq_self fun hmem ↦ ?_
  have hok := (reads_of_span1 hresult).2.1 '\n' hmem
  exact Bool.noConfusion (hfeed.symm.trans hok)

/-- Assumes: a word of letters. A keyword is mirrored by itself. -/
theorem keyword {word : List Char} (hword : ∀ c ∈ word, c.isLower = true) :
    Mirrors source id (keyword word) (keyword word) := by
  intro cursor hcursor
  have hrest : (cursor.paired source).rest = pairFeeds cursor.rest := rfl
  have hspelled : ∀ {text : List Char}, text.map Char.toLower = word →
      '\r' ∉ text ∧ '\n' ∉ text := by
    rintro text rfl
    refine ⟨fun hmem ↦ ?_, fun hmem ↦ ?_⟩
    · exact absurd (hword _ (List.mem_map_of_mem hmem)) (by decide)
    · exact absurd (hword _ (List.mem_map_of_mem hmem)) (by decide)
  have htake : ∀ {text : List Char}, text.map Char.toLower = word →
      ((pairFeeds cursor.rest).take word.length = text ↔
        cursor.rest.take word.length = text) := fun htext ↦
    take_pairFeeds_eq_iff (hspelled htext).1 (hspelled htext).2 cursor.rest word.length
  unfold Parser.keyword
  dsimp only
  rw [hrest]
  by_cases hword : (cursor.rest.take word.length).map Char.toLower = word
  · have hsame := (htake hword).mpr rfl
    have hlength : (cursor.rest.take word.length).length = word.length := by
      conv_rhs => rw [← hword, List.length_map]
    have hcut : CutsNoPair (cursor.rest.take word.length) (cursor.rest.drop word.length) :=
      CutsNoPair.of_last fun hlast ↦ (hspelled hword).1 (List.mem_of_getLast? hlast)
    obtain ⟨hstands, hskip⟩ := hcursor.skip (List.take_append_drop _ _).symm hcut
    rw [pairFeeds_eq_self (hspelled hword).2, hlength] at hskip
    rw [hlength] at hstands
    rw [hsame, if_pos hword, if_pos hword, ← hskip]
    refine ⟨rfl, ?_⟩
    rintro _ _ ⟨⟩
    exact hstands
  · rw [if_neg hword, if_neg fun hpaired ↦ hword ((htake hpaired).mp rfl ▸ hpaired)]
    exact ⟨rfl, by simp⟩

end Mirrors

end Parser

end DialogueScript.Syntax
