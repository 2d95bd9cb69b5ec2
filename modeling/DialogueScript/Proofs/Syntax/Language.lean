import DialogueScript.Syntax.Grammar
import Mathlib

/-!
# The language of message scripts

This module writes the grammar of message scripts as formal languages over characters, with union,
concatenation and Kleene star. No order of choice and no greed is in these definitions: a text
belongs to a language if it can be taken apart in some way.

The words come first: spacing, keywords in either case, identifiers, ids of tags, literals and runs
of plain text. Each has a characterization by its characters (`mem_identifier`, `mem_tagId`,
`mem_literal`, `mem_run`, `mem_anyCase`). Tags, texts with tags, headers, windows and whole scripts
are put together from the words.
-/

set_option autoImplicit false
set_option relaxedAutoImplicit false

namespace DialogueScript.Syntax.Spelling

open scoped Computability

/-! ### Words -/

/-- The texts of one character of a class. -/
def oneOf (ok : Char → Bool) : Language Char :=
  {text | ∃ c, ok c = true ∧ text = [c]}

/-- Spacing, which may be absent. -/
def spacing : Language Char :=
  (oneOf isSpacing)∗

/-- Spacing of at least one character. -/
def gap : Language Char :=
  oneOf isSpacing * spacing

/-- What may stand before the first window. -/
def blanks : Language Char :=
  (oneOf isBlank)∗

/-- A word in lower case with each of its letters in either case. -/
def anyCase (word : List Char) : Language Char :=
  (word.map fun c ↦ ({[c], [c.toUpper]} : Language Char)).prod

/-- The identifier of a window. -/
def identifier : Language Char :=
  oneOf isIdentifierHead * (oneOf isIdentifierTail)∗

/-- The id of a tag. -/
def tagId : Language Char :=
  oneOf Char.isAlpha * (oneOf isIdentifierTail)∗

/-- A literal of a tag. -/
def literal : Language Char :=
  {['0', 'x']} * (oneOf Char.isAlphanum)∗ +
    (1 + {['-']}) * oneOf Char.isDigit * (oneOf Char.isAlphanum)∗

/-- A run of plain text. -/
def run : Language Char :=
  oneOf isPlain * (oneOf isPlain)∗

/-! ### Constructs -/

/-- A tag: without an id it holds spacing only. -/
def tag : Language Char :=
  {['<']} * spacing * {['>']} +
    {['<']} * spacing * tagId * (gap * literal)∗ * spacing * {['>']}

/-- A text with tags: plain characters and tags in any order. -/
def taggedText : Language Char :=
  (oneOf isPlain + tag)∗

/-- A speaker name in its brackets. -/
def speaker : Language Char :=
  {['[']} * taggedText * {[']']}

/-- The header of a dialog window. -/
def dialogHeader : Language Char :=
  {['[']} * spacing * anyCase ['d', 'l', 'g'] * (1 + gap * identifier) * spacing * (1 + speaker) *
    spacing * {[']']}

/-- The header of a selection window. -/
def selectionHeader : Language Char :=
  {['[']} * spacing * anyCase ['s', 'e', 'l'] * (1 + gap * identifier) * spacing * {[']']}

/-- A window: a header and a text with tags. -/
def window : Language Char :=
  (dialogHeader + selectionHeader) * taggedText

/-- A whole script: blanks and then windows. -/
def script : Language Char :=
  blanks * window∗

/-! ### Membership -/

/-- A text in front of a language. -/
theorem mem_singleton_mul {word text : List Char} {language : Language Char} :
    text ∈ ({word} : Language Char) * language ↔ ∃ rest ∈ language, word ++ rest = text := by
  rw [Language.mem_mul]
  constructor
  · rintro ⟨_, rfl, rest, hrest, htext⟩
    exact ⟨rest, hrest, htext⟩
  · rintro ⟨rest, hrest, htext⟩
    exact ⟨word, rfl, rest, hrest, htext⟩

theorem mem_singleton {word text : List Char} : text ∈ ({word} : Language Char) ↔ text = word :=
  Iff.rfl

theorem self_mem_singleton (word : List Char) : word ∈ ({word} : Language Char) :=
  rfl

/-- A language whose texts may be absent. -/
theorem mem_one_add {text : List Char} {language : Language Char} :
    text ∈ 1 + language ↔ text = [] ∨ text ∈ language := by
  rw [Language.mem_add, Language.mem_one]

/-- A nonempty list of texts of a language, one behind another. -/
theorem append_mem_kstar {text rest : List Char} {language : Language Char}
    (htext : text ∈ language) (hrest : rest ∈ language∗) : text ++ rest ∈ language∗ := by
  obtain ⟨texts, rfl, htexts⟩ := hrest
  exact ⟨text :: texts, rfl, by simpa using ⟨htext, htexts⟩⟩

/-- The star of a class holds the texts whose characters are all of the class. -/
theorem mem_kstar_oneOf {ok : Char → Bool} {text : List Char} :
    text ∈ (oneOf ok)∗ ↔ ∀ c ∈ text, ok c = true := by
  constructor
  · rintro ⟨texts, rfl, htexts⟩ c hc
    obtain ⟨piece, hpiece, hmem⟩ := List.mem_flatten.mp hc
    obtain ⟨d, hd, rfl⟩ := htexts piece hpiece
    rwa [List.mem_singleton.mp hmem]
  · intro htext
    induction text with
    | nil => exact Language.nil_mem_kstar _
    | cons c rest ih =>
      have hhead : [c] ∈ oneOf ok := ⟨c, htext c (by simp), rfl⟩
      exact append_mem_kstar hhead (ih fun d hd ↦ htext d (by simp [hd]))

theorem mem_spacing {text : List Char} : text ∈ spacing ↔ ∀ c ∈ text, isSpacing c = true :=
  mem_kstar_oneOf

theorem mem_blanks {text : List Char} : text ∈ blanks ↔ ∀ c ∈ text, isBlank c = true :=
  mem_kstar_oneOf

/-- A word of a first character of one class and later characters of another. -/
theorem mem_oneOf_mul_kstar {first later : Char → Bool} {text : List Char} :
    text ∈ oneOf first * (oneOf later)∗ ↔
      ∃ head tail, text = head :: tail ∧ first head = true ∧ ∀ c ∈ tail, later c = true := by
  rw [Language.mem_mul]
  constructor
  · rintro ⟨_, ⟨head, hhead, rfl⟩, tail, htail, rfl⟩
    exact ⟨head, tail, rfl, hhead, mem_kstar_oneOf.mp htail⟩
  · rintro ⟨head, tail, rfl, hhead, htail⟩
    exact ⟨[head], ⟨head, hhead, rfl⟩, tail, mem_kstar_oneOf.mpr htail, rfl⟩

/-- A class repeated at least once holds the nonempty texts of the class. -/
theorem mem_oneOf_mul_kstar_self {ok : Char → Bool} {text : List Char} :
    text ∈ oneOf ok * (oneOf ok)∗ ↔ text ≠ [] ∧ ∀ c ∈ text, ok c = true := by
  rw [mem_oneOf_mul_kstar]
  constructor
  · rintro ⟨head, tail, rfl, hhead, htail⟩
    exact ⟨by simp, by simpa using ⟨hhead, htail⟩⟩
  · rintro ⟨hne, htext⟩
    obtain ⟨head, tail, rfl⟩ := List.exists_cons_of_ne_nil hne
    exact ⟨head, tail, rfl, htext head (by simp), fun c hc ↦ htext c (by simp [hc])⟩

theorem mem_gap {text : List Char} :
    text ∈ gap ↔ text ≠ [] ∧ ∀ c ∈ text, isSpacing c = true :=
  mem_oneOf_mul_kstar_self

theorem mem_run {text : List Char} : text ∈ run ↔ text ≠ [] ∧ ∀ c ∈ text, isPlain c = true :=
  mem_oneOf_mul_kstar_self

theorem mem_identifier {text : List Char} :
    text ∈ identifier ↔ ∃ head tail, text = head :: tail ∧ isIdentifierHead head = true ∧
      ∀ c ∈ tail, isIdentifierTail c = true :=
  mem_oneOf_mul_kstar

theorem mem_tagId {text : List Char} :
    text ∈ tagId ↔ ∃ head tail, text = head :: tail ∧ head.isAlpha = true ∧
      ∀ c ∈ tail, isIdentifierTail c = true :=
  mem_oneOf_mul_kstar

/-- The two forms of a literal come to one, since the zero of a hexadecimal literal is a digit and
its `x` a letter. -/
theorem mem_literal {text : List Char} :
    text ∈ literal ↔ ∃ sign head tail, text = sign ++ head :: tail ∧
      (sign = [] ∨ sign = ['-']) ∧ head.isDigit = true ∧ ∀ c ∈ tail, c.isAlphanum = true := by
  rw [literal, Language.mem_add, mem_singleton_mul, mul_assoc, Language.mem_mul]
  constructor
  · rintro (⟨digits, hdigits, rfl⟩ | ⟨sign, hsign, digits, hdigits, rfl⟩)
    · refine ⟨[], '0', 'x' :: digits, rfl, Or.inl rfl, by decide, ?_⟩
      intro c hc
      rcases List.mem_cons.mp hc with rfl | hlater
      · decide
      · exact mem_kstar_oneOf.mp hdigits c hlater
    · obtain ⟨head, tail, rfl, hhead, htail⟩ := mem_oneOf_mul_kstar.mp hdigits
      exact ⟨sign, head, tail, rfl, mem_one_add.mp hsign, hhead, htail⟩
  · rintro ⟨sign, head, tail, rfl, hsign, hhead, htail⟩
    exact Or.inr ⟨sign, mem_one_add.mpr hsign, head :: tail,
      mem_oneOf_mul_kstar.mpr ⟨head, tail, rfl, hhead, htail⟩, rfl⟩

/-! ### Letters in either case -/

theorem toNat_toLower (c : Char) :
    c.toLower.toNat = if 65 ≤ c.toNat ∧ c.toNat ≤ 90 then c.toNat + 32 else c.toNat := by
  unfold Char.toLower
  simp only [ge_iff_le, UInt32.le_iff_toNat_le]
  change (if h : 65 ≤ c.toNat ∧ c.toNat ≤ 90 then _ else c).toNat = _
  split_ifs with h
  · change (c.val + 32).toNat = _
    have hval : c.val.toNat = c.toNat := rfl
    have hstep : (32 : UInt32).toNat = 32 := rfl
    rw [UInt32.toNat_add]
    omega
  · rfl

theorem toNat_toUpper (c : Char) :
    c.toUpper.toNat = if 97 ≤ c.toNat ∧ c.toNat ≤ 122 then c.toNat - 32 else c.toNat := by
  unfold Char.toUpper
  simp only [UInt32.le_iff_toNat_le]
  change (if h : 97 ≤ c.toNat ∧ c.toNat ≤ 122 then _ else c).toNat = _
  split_ifs with h
  · change (c.val + ('A'.val - 'a'.val)).toNat = _
    have hval : c.val.toNat = c.toNat := rfl
    -- the difference is taken modulo the size of a word
    have hstep : ('A'.val - 'a'.val).toNat = 4294967264 := by decide
    rw [UInt32.toNat_add]
    omega
  · rfl

/-- Assumes: a lower-case letter. The characters that are the letter up to case are the letter and
its capital. -/
theorem toLower_eq_iff {c letter : Char} (hletter : letter.isLower = true) :
    c.toLower = letter ↔ c = letter ∨ c = letter.toUpper := by
  have hbounds : 97 ≤ letter.toNat ∧ letter.toNat ≤ 122 := by
    simpa [Char.isLower, UInt32.le_iff_toNat_le] using hletter
  simp only [← Char.toNat_inj, toNat_toLower, toNat_toUpper, if_pos hbounds]
  split_ifs <;> omega

/-- Assumes: a word in lower case. Its spellings in either case are the texts that become the word
when their capitals are lowered. -/
theorem mem_anyCase {word text : List Char} (hword : ∀ c ∈ word, c.isLower = true) :
    text ∈ anyCase word ↔ text.map Char.toLower = word := by
  induction word generalizing text with
  | nil =>
    change text ∈ (1 : Language Char) ↔ _
    rw [Language.mem_one, List.map_eq_nil_iff]
  | cons letter rest ih =>
    have hletter : letter.isLower = true := hword letter (by simp)
    change text ∈ ({[letter], [letter.toUpper]} : Language Char) * anyCase rest ↔ _
    rw [Language.mem_mul, List.map_eq_cons_iff]
    constructor
    · rintro ⟨first, hfirst, later, hlater, rfl⟩
      have hmap := (ih fun c hc ↦ hword c (by simp [hc])).mp hlater
      rcases hfirst with rfl | rfl
      · exact ⟨letter, later, rfl, (toLower_eq_iff hletter).mpr (Or.inl rfl), hmap⟩
      · exact ⟨letter.toUpper, later, rfl, (toLower_eq_iff hletter).mpr (Or.inr rfl), hmap⟩
    · rintro ⟨c, later, rfl, hc, hmap⟩
      refine ⟨[c], ?_, later, (ih fun d hd ↦ hword d (by simp [hd])).mpr hmap, rfl⟩
      exact ((toLower_eq_iff hletter).mp hc).imp (congrArg (fun d ↦ [d])) (congrArg fun d ↦ [d])

theorem isLower_dlg : ∀ c ∈ ['d', 'l', 'g'], c.isLower = true :=
  List.forall_mem_cons.mpr ⟨rfl, List.forall_mem_cons.mpr ⟨rfl, List.forall_mem_singleton.mpr rfl⟩⟩

theorem isLower_sel : ∀ c ∈ ['s', 'e', 'l'], c.isLower = true :=
  List.forall_mem_cons.mpr ⟨rfl, List.forall_mem_cons.mpr ⟨rfl, List.forall_mem_singleton.mpr rfl⟩⟩

end DialogueScript.Syntax.Spelling
