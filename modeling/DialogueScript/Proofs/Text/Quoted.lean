import DialogueScript.Proofs.Compile.Literal
import DialogueScript.Text.Quoted

/-!
# Quoted texts are told apart

Two texts are told apart by their beginnings if, whatever stands behind each of them, they can come
out the same only under a condition, and then the same stands behind both (`AgreeOnlyIf`). This is
kept when texts are put together, so that what is written piece by piece is told apart piece by
piece, without a look at what may follow.

Inside quotes a character is written in one of several ways, but each of them is read back as the
character (`readCharacter?_escape`), and none begins with the quote at the end. So quoted texts agree
only if their contents do (`agreeOnlyIf_quote`).
-/

set_option autoImplicit false
set_option relaxedAutoImplicit false

namespace DialogueScript.Text

/-! ### Texts and what stands behind them -/

/-- Two texts come out the same, each with something behind it, only under a condition, and only if
the same stands behind both. -/
def AgreeOnlyIf (condition : Prop) (first second : List Char) : Prop :=
  ∀ behind other, first ++ behind = second ++ other → condition ∧ behind = other

namespace AgreeOnlyIf

variable {p q : Prop} {first second : List Char}

theorem mono (h : AgreeOnlyIf p first second) (himp : p → q) : AgreeOnlyIf q first second :=
  fun behind other heq ↦ (h behind other heq).imp_left himp

/-- A text agrees with itself without a condition. -/
theorem refl (text : List Char) : AgreeOnlyIf True text text :=
  fun _ _ heq ↦ ⟨trivial, List.append_cancel_left heq⟩

/-- A text may agree with itself under a condition that holds. -/
theorem same (hp : p) (text : List Char) : AgreeOnlyIf p text text :=
  (refl text).mono fun _ ↦ hp

/-- Texts that are put together agree only if all of their parts do. -/
theorem append {later latter : List Char} (h : AgreeOnlyIf p first second)
    (hbehind : AgreeOnlyIf q later latter) :
    AgreeOnlyIf (p ∧ q) (first ++ later) (second ++ latter) := by
  intro behind other heq
  rw [List.append_assoc, List.append_assoc] at heq
  obtain ⟨hp, hlater⟩ := h _ _ heq
  obtain ⟨hq, hrest⟩ := hbehind _ _ hlater
  exact ⟨⟨hp, hq⟩, hrest⟩

theorem symm (h : AgreeOnlyIf p first second) : AgreeOnlyIf p second first :=
  fun behind other heq ↦ (h other behind heq.symm).imp_right Eq.symm

/-- The same text in front of both changes nothing. -/
theorem behind (h : AgreeOnlyIf p first second) (text : List Char) :
    AgreeOnlyIf p (text ++ first) (text ++ second) :=
  ((refl text).append h).mono And.right

/-- The same text behind both changes nothing. -/
theorem before (h : AgreeOnlyIf p first second) (text : List Char) :
    AgreeOnlyIf p (first ++ text) (second ++ text) :=
  (h.append (refl text)).mono And.left

/-- Assumes: two texts that begin with different characters. They never agree. -/
theorem of_head {c d : Char} (hfirst : first.head? = some c) (hsecond : second.head? = some d)
    (hne : c ≠ d) : AgreeOnlyIf p first second := by
  intro behind other heq
  obtain ⟨firstRest, rfl⟩ := List.head?_eq_some_iff.mp hfirst
  obtain ⟨secondRest, rfl⟩ := List.head?_eq_some_iff.mp hsecond
  exact absurd (List.cons.inj heq).1 hne

/-- Assumes: a reader that finds a value and what stands behind the text that it is written as. The
texts of two values agree only if the values are the same. -/
theorem of_reader {α : Type} (read : List Char → Option (α × List Char)) {a b : α}
    (hfirst : ∀ rest, read (first ++ rest) = some (a, rest))
    (hsecond : ∀ rest, read (second ++ rest) = some (b, rest)) :
    AgreeOnlyIf (a = b) first second := by
  intro behind other heq
  have hread : some (a, behind) = some (b, other) := by
    rw [← hfirst behind, heq, hsecond other]
  exact Prod.mk.inj (Option.some.inj hread)

end AgreeOnlyIf

/-- Reads a text up to a mark, and the mark. -/
def readToMark (mark : Char) (text : List Char) : Option (List Char × List Char) :=
  some (text.takeWhile (· != mark), (text.dropWhile (· != mark)).tail)

/-- Assumes: a text without a mark. It is what is read up to the mark. -/
theorem readToMark_append {mark : Char} {text : List Char} (h : mark ∉ text) (rest : List Char) :
    readToMark mark (text ++ [mark] ++ rest) = some (text, rest) := by
  have hpass : ∀ c ∈ text, (c != mark) = true := fun c hc ↦ bne_iff_ne.mpr fun heq ↦ h (heq ▸ hc)
  rw [readToMark, List.append_assoc, List.takeWhile_append_of_pos hpass,
    List.dropWhile_append_of_pos hpass]
  simp

/-- Assumes: texts without a mark. With the mark behind them they agree only if they are the
same. -/
theorem AgreeOnlyIf.of_mark {mark : Char} {first second : List Char} (hfirst : mark ∉ first)
    (hsecond : mark ∉ second) :
    AgreeOnlyIf (first = second) (first ++ [mark]) (second ++ [mark]) :=
  .of_reader (readToMark mark) (readToMark_append hfirst) (readToMark_append hsecond)

/-! ### Characters inside quotes -/

/-- The character that a letter behind a backslash stands for. -/
def announced (letter : Char) : Char :=
  if letter = '0' then '\x00' else if letter = 't' then '\t' else if letter = 'r' then '\r'
  else if letter = 'n' then '\n' else letter

/-- Reads a character inside quotes. There is none in front of the quote at the end. -/
def readCharacter? : List Char → Option (Char × List Char)
  | [] => none
  | '"' :: _ => none
  | '\\' :: 'u' :: '\x7b' :: rest =>
    (readToMark '\x7d' rest).bind fun (digits, behind) ↦
      (Numeral.hex? digits).map fun n ↦ (Char.ofNat n, behind)
  | '\\' :: letter :: rest => some (announced letter, rest)
  | c :: rest => some (c, rest)

/-- A hexadecimal numeral has no character that is no digit. -/
theorem notMem_hexDigits {c : Char} (hc : Numeral.hexDigit? c = none) (n : Nat) :
    c ∉ hexDigits n := by
  intro hmem
  obtain ⟨-, digits, hdigits, -⟩ := Numeral.isHex_hexDigits n
  obtain ⟨d, hd⟩ := Syntax.Outline.exists_forall₂_iff.mp ⟨digits, hdigits⟩ c hmem
  have hread := (Numeral.hexDigit?_eq_some_iff c d).mpr hd
  exact absurd (hc.symm.trans hread) nofun

theorem readCharacter?_codePointEscape (c : Char) (rest : List Char) :
    readCharacter? (codePointEscape c ++ rest) = some (c, rest) := by
  have hvalue : Numeral.hex? (hexDigits c.toNat) = some c.toNat :=
    Numeral.hex?_eq_some_iff.mpr (Numeral.isHex_hexDigits c.toNat)
  change readCharacter? ('\\' :: 'u' :: '\x7b' :: (hexDigits c.toNat ++ ['\x7d'] ++ rest)) = _
  rw [readCharacter?, readToMark_append (notMem_hexDigits (by decide) c.toNat), Option.bind_some]
  simp only [hvalue, Option.map_some, Char.ofNat_toNat]

section Quoted

variable {marks : List Char} (hquote : '"' ∈ marks)
  (hmarks : ∀ mark ∈ marks, announced mark = mark ∧ mark ≠ 'u')

include hquote hmarks

/-- Assumes: marks among which is the quote at the end, and of which each stands for itself behind a
backslash. A character is read back from what it is written as. The cases are the ways to write
it. -/
theorem readCharacter?_escape (c : Char) (rest : List Char) :
    readCharacter? (escape marks c ++ rest) = some (c, rest) := by
  unfold escape
  split_ifs with hnul htab hreturn hfeed hmark hvisible
  · rw [hnul]
    rfl
  · rw [htab]
    rfl
  · rw [hreturn]
    rfl
  · rw [hfeed]
    rfl
  · have hself : announced c = c ∧ c ≠ 'u' := by
      rcases hmark with rfl | hmark
      · decide
      · exact hmarks c hmark
    rw [List.cons_append, List.singleton_append, readCharacter?, hself.1]
    intro _ hu
    exact absurd hu hself.2
  · rw [not_or] at hmark
    rw [List.singleton_append, readCharacter?]
    · rintro rfl
      exact hmark.2 hquote
    · rintro _ rfl
      exact absurd rfl hmark.1
    · rintro _ _ rfl
      exact absurd rfl hmark.1
  · exact readCharacter?_codePointEscape c rest

/-- Assumes: marks as before. The quote at the end is not taken for the beginning of a character. -/
theorem quote_cons_ne_escape_append (c : Char) (behind other : List Char) :
    '"' :: behind ≠ escape marks c ++ other := by
  intro heq
  have hread := congrArg readCharacter? heq
  rw [readCharacter?_escape hquote hmarks] at hread
  exact absurd hread nofun

/-- Assumes: marks as before. Contents with the quote at their end agree only if they are the same.
The induction is on the first content. -/
theorem agreeOnlyIf_flatMap_escape (first second : List Char) :
    AgreeOnlyIf (first = second) (first.flatMap (escape marks) ++ ['"'])
      (second.flatMap (escape marks) ++ ['"']) := by
  induction first generalizing second with
  | nil =>
    cases second with
    | nil => exact .same rfl ['"']
    | cons d later =>
      intro behind other heq
      rw [List.flatMap_cons, List.append_assoc (escape marks d),
        List.append_assoc (escape marks d)] at heq
      exact absurd heq (quote_cons_ne_escape_append hquote hmarks d behind _)
  | cons c rest ih =>
    cases second with
    | nil =>
      intro behind other heq
      rw [List.flatMap_cons, List.append_assoc (escape marks c),
        List.append_assoc (escape marks c)] at heq
      exact absurd heq.symm (quote_cons_ne_escape_append hquote hmarks c other _)
    | cons d later =>
      have hhead : AgreeOnlyIf (c = d) (escape marks c) (escape marks d) :=
        .of_reader readCharacter? (readCharacter?_escape hquote hmarks c)
          (readCharacter?_escape hquote hmarks d)
      rw [List.flatMap_cons, List.flatMap_cons, List.append_assoc, List.append_assoc]
      exact (hhead.append (ih later)).mono fun ⟨hc, hrest⟩ ↦ by rw [hc, hrest]

/-- Assumes: marks as before. Quoted texts agree only if their contents are the same. -/
theorem agreeOnlyIf_quote (first second : String) :
    AgreeOnlyIf (first = second) (quote marks first).toList (quote marks second).toList := by
  have hcontent := agreeOnlyIf_flatMap_escape hquote hmarks first.toList second.toList
  rw [quote, quote, String.toList_ofList, String.toList_ofList]
  exact (hcontent.behind ['"']).mono String.toList_inj.mp

end Quoted

end DialogueScript.Text
