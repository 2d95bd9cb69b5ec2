import DialogueScript.Proofs.Syntax.Completeness
import DialogueScript.Proofs.Syntax.Decomposition

/-!
# What stands behind the bracket of a tag

In a script every `<` is followed, behind spacing, by a letter or by `>`: by the id of the tag, or
by its end. Behind the id every minus is followed by a digit, since it is the sign of a literal.
`Spot` is what a reader of a text must know to see this, and looks at nothing else. The texts that
lead such a reader back to where it was form languages (`Spelling.loops`), which are closed under
concatenation and repetition and contain the constructs of the grammar one by one: what stands in a
tag behind its id leads back into the tag (`literal_le_inside`), and all other constructs lead back
out of it (`script_le_outside`). A source with anything else behind a `<` is therefore not read
(`parse_ne_ok_of_stray`), and neither is one with anything but a digit behind a minus in a tag
(`parse_ne_ok_of_minus`).
-/

set_option autoImplicit false
set_option relaxedAutoImplicit false

namespace DialogueScript.Syntax

open scoped Computability

/-- Where a reader is between the brackets of tags. -/
inductive Spot where
  /-- Not in a tag. -/
  | outside
  /-- Behind the bracket of a tag, where its id is awaited. -/
  | opened
  /-- In a tag behind its id. -/
  | inside
  /-- Behind a minus in a tag, where a digit is awaited. -/
  | signed
deriving DecidableEq

namespace Spot

/-- Where the reader is behind a character, unless something else is awaited. -/
def next : Spot → Char → Option Spot
  | outside, c => some (if c = '<' then opened else outside)
  | opened, c =>
    if isSpacing c then some opened
    else if c.isAlpha then some inside
    else if c = '>' then some outside
    else none
  | inside, c =>
    if c = '<' then none
    else if c = '>' then some outside
    else some (if c = '-' then signed else inside)
  | signed, c => if c.isDigit then some inside else none

/-- Where the reader is behind a text. -/
def after (spot : Spot) (text : List Char) : Option Spot :=
  text.foldlM next spot

theorem after_cons (spot : Spot) (c : Char) (text : List Char) :
    spot.after (c :: text) = (spot.next c).bind fun later ↦ later.after text :=
  List.foldlM_cons

theorem after_append (spot : Spot) (first second : List Char) :
    spot.after (first ++ second) = (spot.after first).bind fun later ↦ later.after second :=
  List.foldlM_append

/-- Only outside of tags may a tag begin. -/
theorem next_bracket {spot later : Spot} (h : spot.next '<' = some later) :
    spot = outside ∧ later = opened := by
  cases spot with
  | outside => exact ⟨rfl, (Option.some.inj h).symm⟩
  | opened => exact absurd h nofun
  | inside => exact absurd h nofun
  | signed => exact absurd h nofun

/-- Spacing may stand in front of an id. -/
theorem opened_after_spacing {spaces : List Char} (h : spaces ∈ Spelling.spacing) :
    opened.after spaces = some opened := by
  have hspaces := Spelling.mem_spacing.mp h
  clear h
  induction spaces with
  | nil => rfl
  | cons c more ih =>
    obtain ⟨hc, hmore⟩ := List.forall_mem_cons.mp hspaces
    rw [after_cons, next, if_pos hc]
    exact ih hmore

/-- An id begins with a letter, which is no spacing. -/
theorem opened_next_letter {c : Char} (h : c.isAlpha = true) : opened.next c = some inside := by
  have hspacing : isSpacing c = false :=
    (stops_cons isSpacing c []).mp (stops_spacing_cons rfl rfl h [])
  rw [next, if_neg (by simp [hspacing]), if_pos h]

end Spot

namespace Spelling

/-- The texts that lead a reader back to where it was. -/
def loops (spot : Spot) : Language Char :=
  {text | spot.after text = some spot}

variable {spot : Spot}

theorem one_le_loops : 1 ≤ loops spot := by
  intro text htext
  rw [(Language.mem_one text).mp htext]
  rfl

theorem append_mem_loops {first second : List Char} (hfirst : first ∈ loops spot)
    (hsecond : second ∈ loops spot) : first ++ second ∈ loops spot := by
  have hread : spot.after first = some spot := hfirst
  change spot.after (first ++ second) = some spot
  rw [Spot.after_append, hread]
  exact hsecond

theorem mul_le_loops {first second : Language Char} (hfirst : first ≤ loops spot)
    (hsecond : second ≤ loops spot) : first * second ≤ loops spot := by
  intro text htext
  obtain ⟨one, hone, two, htwo, rfl⟩ := Language.mem_mul.mp htext
  exact append_mem_loops (hfirst hone) (hsecond htwo)

theorem kstar_le_loops {language : Language Char} (h : language ≤ loops spot) :
    language∗ ≤ loops spot := by
  rintro text ⟨pieces, rfl, hpieces⟩
  induction pieces with
  | nil => rfl
  | cons piece rest ih =>
    have hrest := ih fun other hother ↦ hpieces other (List.mem_cons_of_mem piece hother)
    exact append_mem_loops (h (hpieces piece List.mem_cons_self)) hrest

/-- Assumes: a class of characters each of which leads the reader back. -/
theorem oneOf_le_loops {ok : Char → Bool} (h : ∀ c, ok c = true → spot.next c = some spot) :
    oneOf ok ≤ loops spot := by
  rintro text ⟨c, hc, rfl⟩
  change spot.after [c] = some spot
  rw [Spot.after_cons, h c hc]
  rfl

/-- Assumes: a class of characters without the bracket of a tag. -/
theorem oneOf_le_outside {ok : Char → Bool} (h : ok '<' = false) :
    oneOf ok ≤ loops .outside := by
  refine oneOf_le_loops fun c hc ↦ ?_
  have hne : c ≠ '<' := by
    rintro rfl
    exact absurd hc (by simp [h])
  rw [Spot.next, if_neg hne]

/-- Assumes: a class of characters without the brackets of a tag and the minus. -/
theorem oneOf_le_inside {ok : Char → Bool} (hopen : ok '<' = false) (hclose : ok '>' = false)
    (hminus : ok '-' = false) : oneOf ok ≤ loops .inside := by
  refine oneOf_le_loops fun c hc ↦ ?_
  have hne : ∀ other, ok other = false → c ≠ other := by
    rintro other hother rfl
    exact absurd hc (by simp [hother])
  rw [Spot.next, if_neg (hne '<' hopen), if_neg (hne '>' hclose), if_neg (hne '-' hminus)]

theorem singleton_le_loops {word : List Char} (h : spot.after word = some spot) :
    ({word} : Language Char) ≤ loops spot := by
  rintro text rfl
  exact h

/-! ### What stands in a tag -/

theorem spacing_le_inside : spacing ≤ loops .inside :=
  kstar_le_loops (oneOf_le_inside rfl rfl rfl)

theorem gap_le_inside : gap ≤ loops .inside :=
  mul_le_loops (oneOf_le_inside rfl rfl rfl) spacing_le_inside

/-- The sign of a literal has the digit that it awaits. -/
theorem literal_le_inside : literal ≤ loops .inside := by
  intro text htext
  obtain ⟨sign, head, tail, rfl, hsign, hhead, htail⟩ := mem_literal.mp htext
  have hdigit : [head] ∈ loops .inside := oneOf_le_inside rfl rfl rfl ⟨head, hhead, rfl⟩
  have halphanum : (oneOf Char.isAlphanum)∗ ≤ loops .inside :=
    kstar_le_loops (oneOf_le_inside rfl rfl rfl)
  have htailLoops : tail ∈ loops .inside := halphanum (mem_kstar_oneOf.mpr htail)
  rcases hsign with rfl | rfl
  · exact @append_mem_loops _ [head] tail hdigit htailLoops
  · refine @append_mem_loops _ ['-', head] tail ?_ htailLoops
    change Spot.signed.after [head] = some .inside
    rw [Spot.after_cons, Spot.next, if_pos hhead]
    rfl

theorem args_le_inside : (gap * literal)∗ ≤ loops .inside :=
  kstar_le_loops (mul_le_loops gap_le_inside literal_le_inside)

/-- A bracket, spacing and an id lead into a tag. -/
theorem after_tagHead {text : List Char} (h : text ∈ {['<']} * spacing * tagId) :
    Spot.outside.after text = some .inside := by
  obtain ⟨opened, hopened, id, hid, rfl⟩ := Language.mem_mul.mp h
  obtain ⟨spaces, hspaces, rfl⟩ := mem_singleton_mul.mp hopened
  obtain ⟨head, tail, rfl, hhead, htail⟩ := mem_tagId.mp hid
  have htailLoops : (oneOf isIdentifierTail)∗ ≤ loops .inside :=
    kstar_le_loops (oneOf_le_inside rfl rfl rfl)
  change Spot.opened.after (spaces ++ head :: tail) = some .inside
  rw [Spot.after_append, Spot.opened_after_spacing hspaces, Option.bind_some, Spot.after_cons,
    Spot.opened_next_letter hhead]
  exact htailLoops (mem_kstar_oneOf.mpr htail)

/-! ### What leads out of every tag -/

/-- A tag is left by its other bracket, behind its id or instead of it. -/
theorem tag_le_outside : tag ≤ loops .outside := by
  refine sup_le ?_ ?_
  · intro text htext
    obtain ⟨opened, hopened, _, rfl, rfl⟩ := Language.mem_mul.mp htext
    obtain ⟨spaces, hspaces, rfl⟩ := mem_singleton_mul.mp hopened
    change Spot.opened.after (spaces ++ ['>']) = some .outside
    rw [Spot.after_append, Spot.opened_after_spacing hspaces]
    rfl
  · intro text htext
    obtain ⟨front, hfront, _, rfl, rfl⟩ := Language.mem_mul.mp htext
    rw [mul_assoc] at hfront
    obtain ⟨head, hhead, rest, hrest, rfl⟩ := Language.mem_mul.mp hfront
    have hinside : rest ∈ loops .inside := mul_le_loops args_le_inside spacing_le_inside hrest
    change Spot.outside.after (head ++ rest ++ ['>']) = some .outside
    rw [Spot.after_append, Spot.after_append, after_tagHead hhead, Option.bind_some,
      (hinside : Spot.inside.after rest = some .inside)]
    rfl

theorem taggedText_le_outside : taggedText ≤ loops .outside :=
  kstar_le_loops (sup_le (oneOf_le_outside rfl) tag_le_outside)

theorem spacing_le_outside : spacing ≤ loops .outside :=
  kstar_le_loops (oneOf_le_outside rfl)

theorem label_le_outside : 1 + gap * identifier ≤ loops .outside := by
  have hgap : gap ≤ loops .outside := mul_le_loops (oneOf_le_outside rfl) spacing_le_outside
  have htail : (oneOf isIdentifierTail)∗ ≤ loops .outside := kstar_le_loops (oneOf_le_outside rfl)
  have hidentifier : identifier ≤ loops .outside := mul_le_loops (oneOf_le_outside rfl) htail
  exact sup_le one_le_loops (mul_le_loops hgap hidentifier)

/-- A text without the bracket of a tag leads into none. -/
theorem mem_outside_of_notMem {text : List Char} (h : '<' ∉ text) : text ∈ loops .outside := by
  have hother : ∀ c ∈ text, (c != '<') = true := by
    intro c hc
    refine bne_iff_ne.mpr ?_
    rintro rfl
    exact h hc
  exact kstar_le_loops (oneOf_le_outside rfl) (mem_kstar_oneOf.mpr hother)

theorem anyCase_le_outside {word : List Char} (hword : ∀ c ∈ word, c.isLower = true) :
    anyCase word ≤ loops .outside := by
  intro text htext
  have hlower := (mem_anyCase hword).mp htext
  refine mem_outside_of_notMem fun hbracket ↦ ?_
  have hmem : '<' ∈ word := hlower ▸ List.mem_map_of_mem hbracket
  exact absurd (hword '<' hmem) (by decide)

/-- A bracket, spacing, a keyword and what may be the name of a window. -/
theorem opening_le_outside {word : List Char} (hword : ∀ c ∈ word, c.isLower = true) :
    {['[']} * spacing * anyCase word * (1 + gap * identifier) ≤ loops .outside := by
  have hopened : {['[']} * spacing ≤ loops .outside :=
    mul_le_loops (singleton_le_loops rfl) spacing_le_outside
  exact mul_le_loops (mul_le_loops hopened (anyCase_le_outside hword)) label_le_outside

theorem window_le_outside : window ≤ loops .outside := by
  have hbracket : ({[']']} : Language Char) ≤ loops .outside := singleton_le_loops rfl
  have hspeaker : speaker ≤ loops .outside :=
    mul_le_loops (mul_le_loops (singleton_le_loops rfl) taggedText_le_outside) hbracket
  have hname := mul_le_loops (mul_le_loops (opening_le_outside isLower_dlg) spacing_le_outside)
    (sup_le one_le_loops hspeaker)
  have hdialog : dialogHeader ≤ loops .outside :=
    mul_le_loops (mul_le_loops hname spacing_le_outside) hbracket
  have hselection : selectionHeader ≤ loops .outside :=
    mul_le_loops (mul_le_loops (opening_le_outside isLower_sel) spacing_le_outside) hbracket
  exact mul_le_loops (sup_le hdialog hselection) taggedText_le_outside

/-- In a script every bracket of a tag has what it awaits, and every sign. -/
theorem script_le_outside : script ≤ loops .outside := by
  have hblanks : blanks ≤ loops .outside := kstar_le_loops (oneOf_le_outside rfl)
  exact mul_le_loops hblanks (kstar_le_loops window_le_outside)

end Spelling

/-! ### Sources that are not read -/

section Unread

variable {front spaces behind : List Char} {c : Char}

/-- Assumes: behind a `<`, which leads into a tag, a text cannot stand. No script is read. -/
theorem parse_ne_ok_of_opened (hbehind : Spot.opened.after behind ≠ some .outside)
    (document : Document) : parse (front ++ '<' :: behind) ≠ .ok document := by
  intro hparse
  obtain ⟨hspelled, htext⟩ := spelled_of_parse hparse
  have hscript : document.text ∈ Spelling.script :=
    mem_script_iff.mpr ⟨document.outline, hspelled.2,
      mem_spellings_iff.mpr ⟨document, hspelled.1, rfl, rfl⟩⟩
  have hread : Spot.outside.after document.text = some .outside :=
    Spelling.script_le_outside hscript
  rw [htext, Spot.after_append] at hread
  obtain ⟨spot, -, hrest⟩ := Option.bind_eq_some_iff.mp hread
  rw [Spot.after_cons] at hrest
  obtain ⟨later, hnext, hlater⟩ := Option.bind_eq_some_iff.mp hrest
  obtain ⟨-, rfl⟩ := Spot.next_bracket hnext
  exact hbehind hlater

/-- Assumes: behind a `<` and spacing stands neither a letter nor `>`. No script is read. -/
theorem parse_ne_ok_of_stray (hspaces : spaces ∈ Spelling.spacing) (hspacing : isSpacing c = false)
    (hletter : c.isAlpha = false) (hend : c ≠ '>') (document : Document) :
    parse (front ++ '<' :: (spaces ++ c :: behind)) ≠ .ok document := by
  refine parse_ne_ok_of_opened ?_ document
  rw [Spot.after_append, Spot.opened_after_spacing hspaces, Option.bind_some, Spot.after_cons,
    Spot.next, if_neg (by simp [hspacing]), if_neg (by simp [hletter]), if_neg hend]
  exact nofun

/-- Assumes: behind the head of a tag and literals stands a minus, and no digit behind it. No script
is read. -/
theorem parse_ne_ok_of_minus {head middle : List Char}
    (hhead : head ∈ {['<']} * Spelling.spacing * Spelling.tagId)
    (hmiddle : middle ∈ Spelling.loops .inside) (hdigit : ∀ c ∈ behind.head?, c.isDigit = false)
    (document : Document) :
    parse (front ++ (head ++ (middle ++ '-' :: behind))) ≠ .ok document := by
  have hafter : Spot.outside.after head = some .inside := Spelling.after_tagHead hhead
  obtain ⟨opened, hopened, id, -, rfl⟩ := Language.mem_mul.mp hhead
  obtain ⟨spaces, -, rfl⟩ := Spelling.mem_singleton_mul.mp hopened
  have hinside : Spot.opened.after (spaces ++ id) = some .inside := hafter
  have hminus : Spot.inside.after ('-' :: behind) = Spot.signed.after behind := rfl
  have hopen : Spot.opened.after (spaces ++ id ++ (middle ++ '-' :: behind)) =
      Spot.signed.after behind := by
    rw [Spot.after_append, hinside, Option.bind_some, Spot.after_append,
      (hmiddle : Spot.inside.after middle = some .inside), Option.bind_some, hminus]
  refine @parse_ne_ok_of_opened front (spaces ++ id ++ (middle ++ '-' :: behind)) ?_ document
  rw [hopen]
  cases behind with
  | nil => exact nofun
  | cons c rest =>
    rw [Spot.after_cons, Spot.next, if_neg (by simp [hdigit c rfl])]
    exact nofun

end Unread

end DialogueScript.Syntax
