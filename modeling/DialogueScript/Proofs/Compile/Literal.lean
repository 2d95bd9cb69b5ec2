import DialogueScript.Proofs.Compile.Meaning
import DialogueScript.Proofs.Text.Decimal
import DialogueScript.Text.Quoted

/-!
# What literals stand for

A numeral is a nonempty run of digits. It stands for the sum of its digits, each times a power of
the base (`Numeral.Spells`). The reader of numerals never forms a power: it goes through the digits
from the left and multiplies what it has by the base. Both come to the same number
(`value?_eq_some_iff`), for runs of any length and any number of leading zeros.

A literal is a hexadecimal numeral behind `0x` or a decimal one behind at most one sign, and each of
the two kinds has a range of its own. `Literal.value_exact` says which literals have a value, that
the value is the only 16-bit integer that differs from the number by a multiple of 65536, and which
error every other literal gives.
-/

set_option autoImplicit false
set_option relaxedAutoImplicit false

namespace DialogueScript

/-! ### Numerals -/

namespace Numeral

/-- A character is the digit of a value in one of several rows of digits. -/
def DigitOf (rows : List (List Char)) (c : Char) (d : Nat) : Prop :=
  ∃ row ∈ rows, row[d]? = some c

/-- A nonempty text of digits stands for a number in a base, the most significant digit first. -/
def Spells (base : Nat) (rows : List (List Char)) (text : List Char) (n : Nat) : Prop :=
  text ≠ [] ∧ ∃ digits, List.Forall₂ (DigitOf rows) text digits ∧
    Nat.ofDigits base digits.reverse = n

/-- A text is a decimal numeral for a number. -/
def IsDecimal (text : List Char) (n : Nat) : Prop :=
  Spells 10 ["0123456789".toList] text n

/-- A text is a hexadecimal numeral for a number, with letters in either case. -/
def IsHex (text : List Char) (n : Nat) : Prop :=
  Spells 16 ["0123456789abcdef".toList, "0123456789ABCDEF".toList] text n

/-- Digits behind a number that is already read. The induction is on the digits, each of which
raises the power that the digits in front of it are multiplied by. -/
theorem extend?_eq_some_iff {base : Nat} {digit? : Char → Option Nat} {rows : List (List Char)}
    (hdigit : ∀ c d, digit? c = some d ↔ DigitOf rows c d) {read n : Nat} {text : List Char} :
    extend? base digit? read text = some n ↔
      ∃ digits, List.Forall₂ (DigitOf rows) text digits ∧
        Nat.ofDigits base digits.reverse + base ^ digits.length * read = n := by
  induction text generalizing read with
  | nil => simp [extend?]
  | cons c rest ih =>
    have hsum : ∀ (d : Nat) (digits : List Nat),
        Nat.ofDigits base (d :: digits).reverse + base ^ (d :: digits).length * read =
          Nat.ofDigits base digits.reverse + base ^ digits.length * (read * base + d) := by
      intro d digits
      rw [List.reverse_cons, Nat.ofDigits_append, Nat.ofDigits_singleton, List.length_reverse,
        List.length_cons]
      ring
    simp only [extend?, Option.bind_eq_some_iff, ih, List.forall₂_cons_left_iff, hdigit]
    constructor
    · rintro ⟨d, hd, digits, hdigits, rfl⟩
      exact ⟨d :: digits, ⟨d, digits, hd, hdigits, rfl⟩, hsum d digits⟩
    · rintro ⟨_, ⟨d, digits, hd, hdigits, rfl⟩, hn⟩
      exact ⟨d, hd, digits, hdigits, (hsum d digits).symm.trans hn⟩

/-- Assumes: a reader of single digits. The numerals that are read with it are those that stand for
a number. -/
theorem value?_eq_some_iff {base : Nat} {digit? : Char → Option Nat} {rows : List (List Char)}
    (hdigit : ∀ c d, digit? c = some d ↔ DigitOf rows c d) {text : List Char} {n : Nat} :
    value? base digit? text = some n ↔ Spells base rows text n := by
  cases text with
  | nil => simp [value?, Spells]
  | cons c rest => simp [value?, Spells, extend?_eq_some_iff hdigit]

/-- A digit between `0` and `9` by its number. -/
theorem isDigit_iff {c : Char} : c.isDigit = true ↔ 48 ≤ c.toNat ∧ c.toNat ≤ 57 := by
  simp [Char.isDigit, UInt32.le_iff_toNat_le]

theorem decimalDigit?_eq_some_iff (c : Char) (d : Nat) :
    decimalDigit? c = some d ↔ DigitOf ["0123456789".toList] c d := by
  simp only [DigitOf, List.mem_singleton, exists_eq_left]
  constructor
  · intro h
    unfold decimalDigit? at h
    split_ifs at h with hdigit
    obtain ⟨hlow, hhigh⟩ := isDigit_iff.mp hdigit
    obtain rfl := Option.some.inj h
    rw [← Char.ofNat_toNat c]
    generalize c.toNat = k at *
    interval_cases k <;> rfl
  · intro h
    obtain ⟨hd, rfl⟩ := List.getElem?_eq_some_iff.mp h
    have hlt : d < 10 := hd
    interval_cases d <;> rfl

theorem hexDigit?_eq_some_iff (c : Char) (d : Nat) :
    hexDigit? c = some d ↔
      DigitOf ["0123456789abcdef".toList, "0123456789ABCDEF".toList] c d := by
  simp only [DigitOf, List.mem_cons, List.not_mem_nil, or_false, exists_eq_or_imp, exists_eq_left]
  constructor
  · intro h
    -- the three rows of characters: digits, small letters, capitals
    have hrows : (48 ≤ c.toNat ∧ c.toNat ≤ 57 ∧ d = c.toNat - 48) ∨
        (97 ≤ c.toNat ∧ c.toNat ≤ 102 ∧ d = c.toNat - 97 + 10) ∨
          (65 ≤ c.toNat ∧ c.toNat ≤ 70 ∧ d = c.toNat - 65 + 10) := by
      unfold hexDigit? at h
      split_ifs at h with hdigit hsmall hcapital
      · obtain ⟨hlow, hhigh⟩ := isDigit_iff.mp hdigit
        exact Or.inl ⟨hlow, hhigh, (Option.some.inj h).symm⟩
      · exact Or.inr (Or.inl ⟨hsmall.1, hsmall.2, (Option.some.inj h).symm⟩)
      · exact Or.inr (Or.inr ⟨hcapital.1, hcapital.2, (Option.some.inj h).symm⟩)
    rw [← Char.ofNat_toNat c]
    generalize c.toNat = k at *
    rcases hrows with ⟨hlow, hhigh, rfl⟩ | ⟨hlow, hhigh, rfl⟩ | ⟨hlow, hhigh, rfl⟩
    · exact Or.inl (by interval_cases k <;> rfl)
    · exact Or.inl (by interval_cases k <;> rfl)
    · exact Or.inr (by interval_cases k <;> rfl)
  · rintro (h | h)
    · obtain ⟨hd, rfl⟩ := List.getElem?_eq_some_iff.mp h
      have hlt : d < 16 := hd
      interval_cases d <;> rfl
    · obtain ⟨hd, rfl⟩ := List.getElem?_eq_some_iff.mp h
      have hlt : d < 16 := hd
      interval_cases d <;> rfl

theorem decimal?_eq_some_iff {text : List Char} {n : Nat} :
    decimal? text = some n ↔ IsDecimal text n :=
  value?_eq_some_iff decimalDigit?_eq_some_iff

theorem hex?_eq_some_iff {text : List Char} {n : Nat} : hex? text = some n ↔ IsHex text n :=
  value?_eq_some_iff hexDigit?_eq_some_iff

/-- The characters of a decimal numeral are digits. -/
theorem isDigit_of_isDecimal {text : List Char} {n : Nat} (h : IsDecimal text n) :
    ∀ c ∈ text, c.isDigit = true := by
  intro c hc
  obtain ⟨-, digits, hdigits, -⟩ := h
  obtain ⟨d, hd⟩ := Syntax.Outline.exists_forall₂_iff.mp ⟨digits, hdigits⟩ c hc
  have hread := (decimalDigit?_eq_some_iff c d).mpr hd
  unfold decimalDigit? at hread
  split_ifs at hread with hdigit
  exact hdigit

/-- A number in decimal is a decimal numeral for it. -/
theorem isDecimal_digits (n : Nat) : IsDecimal (Decimal.digits n) n :=
  decimal?_eq_some_iff.mp (Decimal.decimal?_digits n)

theorem hexDigit?_hexDigit {n : Nat} (hn : n < 16) : hexDigit? (Text.hexDigit n) = some n := by
  revert n
  decide

/-- A number in hexadecimal is a hexadecimal numeral for it. -/
theorem isHex_hexDigits (n : Nat) : IsHex (Text.hexDigits n) n := by
  have hne : Text.hexDigits n ≠ [] := by
    unfold Text.hexDigits
    split_ifs <;> simp
  have hextend : extend? 16 hexDigit? 0 (Text.hexDigits n) = some n := by
    induction n using Text.hexDigits.induct with
    | case1 n hsmall =>
      rw [Text.hexDigits, if_pos hsmall, extend?, hexDigit?_hexDigit hsmall, Option.bind_some,
        extend?, Nat.zero_mul, Nat.zero_add]
    | case2 n hlarge ih =>
      have hmost : Text.hexDigits (n / 16) ≠ [] := by
        unfold Text.hexDigits
        split_ifs <;> simp
      rw [Text.hexDigits, if_neg hlarge, Decimal.extend?_append, ih hmost, Option.bind_some,
        extend?, hexDigit?_hexDigit (Nat.mod_lt n (by decide)), Option.bind_some, extend?,
        Nat.div_add_mod']
  exact ⟨hne, by simpa using (extend?_eq_some_iff hexDigit?_eq_some_iff).mp hextend⟩

end Numeral

/-! ### Literals -/

namespace Literal

/-- A literal is a decimal numeral behind one sign or none, for a number with this sign. -/
inductive Signed : List Char → Int → Prop
  | unsigned {digits : List Char} {n : Nat} (h : Numeral.IsDecimal digits n) : Signed digits n
  | plus {digits : List Char} {n : Nat} (h : Numeral.IsDecimal digits n) : Signed ('+' :: digits) n
  | minus {digits : List Char} {n : Nat} (h : Numeral.IsDecimal digits n) :
      Signed ('-' :: digits) (-n)

/-- A literal stands for a number as `0x` with a hexadecimal numeral of at most 32 bits. -/
def StandsHex (literal : List Char) (n : Int) : Prop :=
  ∃ digits m, literal = ['0', 'x'] ++ digits ∧ Numeral.IsHex digits m ∧ m < 2 ^ 32 ∧ n = m

/-- A literal stands for a number of 32 bits with a sign as a decimal numeral, with or without a
sign. -/
def StandsDecimal (literal : List Char) (n : Int) : Prop :=
  Signed literal n ∧ -2 ^ 31 ≤ n ∧ n ≤ 2 ^ 31 - 1

/-- What a literal answers if it may stand for a number: the one 16-bit integer that is congruent to
the number, and an error if there is no number. -/
structure Answers (stands : Int → Prop) (error : LiteralError)
    (answer : Except LiteralError Int16) : Prop where
  number : ∀ n, stands n → ∃ v, answer = .ok v ∧ ∀ w : Int16, w.toInt ≡ n [ZMOD 2 ^ 16] ↔ w = v
  no_number : (¬∃ n, stands n) → answer = .error error

/-- The only error that is answered is the one for a literal that stands for no number. -/
theorem Answers.eq_of_error {stands : Int → Prop} {error found : LiteralError}
    {answer : Except LiteralError Int16} (h : Answers stands error answer)
    (hfound : answer = .error found) : found = error := by
  by_cases hstands : ∃ n, stands n
  · obtain ⟨n, hn⟩ := hstands
    obtain ⟨v, hv, -⟩ := h.number n hn
    exact absurd (hv.symm.trans hfound) nofun
  · exact Except.error.inj (hfound.symm.trans (h.no_number hstands))

/-- The 16-bit integer of a number is the only one that is congruent to it. -/
theorem modEq_iff_eq_ofInt {n : Int} {w : Int16} :
    w.toInt ≡ n [ZMOD 2 ^ 16] ↔ w = Int16.ofInt n := by
  have hlow := w.le_toInt
  have hhigh := w.toInt_lt
  rw [← Int16.toInt_inj, Int16.toInt_ofInt, Int.bmod_def, Int.ModEq]
  have hsize : (Int16.size : Int) = 65536 := rfl
  rw [hsize]
  split_ifs <;> omega

/-- Assumes: a reader that gives the number of a literal, if it stands for one. An answer that is
made of what the reader gives answers for the literal. -/
theorem answers_of_number? {stands : Int → Prop} {number? : Option Int} {error : LiteralError}
    {answer : Except LiteralError Int16} (h : ∀ n, number? = some n ↔ stands n)
    (hsome : ∀ n, number? = some n → answer = .ok (Int16.ofInt n))
    (hnone : number? = none → answer = .error error) : Answers stands error answer := by
  refine ⟨fun n hn ↦ ?_, fun hno ↦ hnone ?_⟩
  · exact ⟨Int16.ofInt n, hsome n ((h n).mpr hn), fun w ↦ modEq_iff_eq_ofInt⟩
  · exact Option.eq_none_iff_forall_ne_some.mpr fun n hn ↦ hno ⟨n, (h n).mp hn⟩

theorem hexNumber?_eq_some_iff {digits : List Char} {n : Int} :
    hexNumber? digits = some n ↔ StandsHex (['0', 'x'] ++ digits) n := by
  simp only [hexNumber?, StandsHex, Option.bind_eq_some_iff, Numeral.hex?_eq_some_iff,
    List.append_cancel_left_eq]
  constructor
  · rintro ⟨m, hm, hn⟩
    split_ifs at hn with hlt
    exact ⟨digits, m, rfl, hm, hlt, (Option.some.inj hn).symm⟩
  · rintro ⟨_, m, rfl, hm, hlt, rfl⟩
    exact ⟨m, hm, if_pos hlt⟩

/-- A sign is no digit. -/
theorem not_isDecimal_of_head {c : Char} {rest : List Char} (hc : c.isDigit = false) (n : Nat) :
    ¬Numeral.IsDecimal (c :: rest) n := by
  intro h
  rw [Numeral.isDigit_of_isDecimal h c List.mem_cons_self] at hc
  exact Bool.noConfusion hc

theorem signed_plus_iff {digits : List Char} {n : Int} :
    Signed ('+' :: digits) n ↔ ∃ m, Numeral.IsDecimal digits m ∧ Int.ofNat m = n := by
  constructor
  · intro h
    cases h with
    | unsigned h => exact absurd h (not_isDecimal_of_head rfl _)
    | plus h => exact ⟨_, h, rfl⟩
  · rintro ⟨m, hm, rfl⟩
    exact .plus hm

theorem signed_minus_iff {digits : List Char} {n : Int} :
    Signed ('-' :: digits) n ↔ ∃ m, Numeral.IsDecimal digits m ∧ -Int.ofNat m = n := by
  constructor
  · intro h
    cases h with
    | unsigned h => exact absurd h (not_isDecimal_of_head rfl _)
    | minus h => exact ⟨_, h, rfl⟩
  · rintro ⟨m, hm, rfl⟩
    exact .minus hm

theorem signed_digits_iff {literal : List Char} {n : Int}
    (hplus : ∀ digits, literal ≠ '+' :: digits) (hminus : ∀ digits, literal ≠ '-' :: digits) :
    Signed literal n ↔ ∃ m, Numeral.IsDecimal literal m ∧ Int.ofNat m = n := by
  constructor
  · intro h
    cases h with
    | unsigned h => exact ⟨_, h, rfl⟩
    | plus h => exact absurd rfl (hplus _)
    | minus h => exact absurd rfl (hminus _)
  · rintro ⟨m, hm, rfl⟩
    exact .unsigned hm

theorem decimalNumber?_eq_some_iff {literal : List Char} {n : Int} :
    decimalNumber? literal = some n ↔ StandsDecimal literal n := by
  have hrange : ∀ {number? : Option Int}, (number?.bind fun n ↦
      if -0x80000000 ≤ n ∧ n < 0x80000000 then some n else none) = some n ↔
        number? = some n ∧ -2 ^ 31 ≤ n ∧ n ≤ 2 ^ 31 - 1 := by
    intro number?
    rw [Option.bind_eq_some_iff]
    constructor
    · rintro ⟨m, hm, hn⟩
      split_ifs at hn with hbounds
      obtain rfl := Option.some.inj hn
      exact ⟨hm, by omega⟩
    · rintro ⟨hn, hlow, hhigh⟩
      exact ⟨n, hn, if_pos (by omega)⟩
  unfold decimalNumber? StandsDecimal
  rw [hrange]
  refine and_congr_left' ?_
  split
  · rw [signed_plus_iff]
    simp only [Option.map_eq_some_iff, Numeral.decimal?_eq_some_iff]
  · rw [signed_minus_iff]
    simp only [Option.map_eq_some_iff, Numeral.decimal?_eq_some_iff]
  · rename_i hplus hminus
    rw [signed_digits_iff hplus hminus]
    simp only [Option.map_eq_some_iff, Numeral.decimal?_eq_some_iff]

/-- What a literal behind `0x` stands for is answered. -/
theorem answers_hex {literal : List Char} (h : ['0', 'x'] <+: literal) :
    Answers (StandsHex literal) (.hex literal) (value literal) := by
  obtain ⟨digits, rfl⟩ := h
  rw [List.cons_append, List.singleton_append]
  refine answers_of_number? (fun n ↦ hexNumber?_eq_some_iff) (fun n hn ↦ ?_) fun hnone ↦ ?_
  · rw [value, hn]
  · rw [value, hnone]

/-- What any other literal stands for is answered. -/
theorem answers_decimal {literal : List Char} (h : ¬['0', 'x'] <+: literal) :
    Answers (StandsDecimal literal) (.decimal literal) (value literal) := by
  have hother : ∀ digits, literal = '0' :: 'x' :: digits → False := by
    rintro digits rfl
    exact h (List.prefix_append ['0', 'x'] digits)
  refine answers_of_number? (fun n ↦ decimalNumber?_eq_some_iff) (fun n hn ↦ ?_) fun hnone ↦ ?_
  · rw [value.eq_2 literal hother, hn]
  · rw [value.eq_2 literal hother, hnone]

/-- Literals have the values of the numbers that they stand for, and no others. So the decimal and
the hexadecimal numerals for a number of 31 bits have one value, and a 16-bit integer in decimal has
itself as its value. -/
theorem value_exact :
    (∀ literal, ['0', 'x'] <+: literal →
        Answers (StandsHex literal) (.hex literal) (value literal)) ∧
      (∀ literal, ¬['0', 'x'] <+: literal →
        Answers (StandsDecimal literal) (.decimal literal) (value literal)) ∧
      (∀ n < 2 ^ 31, Numeral.IsDecimal (Decimal.digits n) n ∧ Numeral.IsHex (Text.hexDigits n) n ∧
        ∀ decimal hex, Numeral.IsDecimal decimal n → Numeral.IsHex hex n →
          ∃ v, value decimal = .ok v ∧ value (['0', 'x'] ++ hex) = .ok v) ∧
      ∀ n : Int16, value (Decimal.ofInt n.toInt).toList = .ok n := by
  refine ⟨fun _ ↦ answers_hex, fun _ ↦ answers_decimal, fun n hn ↦ ?_, value_ofInt⟩
  refine ⟨Numeral.isDecimal_digits n, Numeral.isHex_hexDigits n, fun decimal hex hd hh ↦ ?_⟩
  have hprefix : ¬['0', 'x'] <+: decimal := by
    intro h
    exact absurd (Numeral.isDigit_of_isDecimal hd 'x' (h.subset (by simp))) (by decide)
  obtain ⟨v, hv, hunique⟩ := (answers_decimal hprefix).number n ⟨.unsigned hd, by omega⟩
  obtain ⟨w, hw, hsame⟩ := (answers_hex (List.prefix_append _ hex)).number n
    ⟨hex, n, rfl, hh, by omega, rfl⟩
  have heq : w = v := (hunique w).mp ((hsame w).mpr rfl)
  exact ⟨v, hv, heq ▸ hw⟩

/-- The ends of both ranges, one of them behind zeros, with the literals next to them. A capital `X`
makes no hexadecimal literal, and a sign behind `0x` none at all. -/
theorem value_exact_limits :
    (∃ v, value "0x00FFFFffff".toList = .ok v ∧
        ∀ w : Int16, w.toInt ≡ 4294967295 [ZMOD 2 ^ 16] ↔ w = v) ∧
      value "0x00FFFFffff".toList = .ok (-1) ∧
      value "0x100000000".toList = .error (.hex "0x100000000".toList) ∧
      value "-2147483648".toList = .ok 0 ∧
      value "+2147483647".toList = .ok (-1) ∧
      value "2147483648".toList = .error (.decimal "2147483648".toList) ∧
      value "0X1".toList = .error (.decimal "0X1".toList) ∧
      value "0x-1".toList = .error (.hex "0x-1".toList) := by
  have hstands : StandsHex "0x00FFFFffff".toList 4294967295 :=
    hexNumber?_eq_some_iff.mp (show hexNumber? "00FFFFffff".toList = some 4294967295 by cbv)
  have hanswers := value_exact.1 "0x00FFFFffff".toList (List.prefix_append _ _)
  exact ⟨hanswers.number _ hstands, rfl, rfl, rfl, rfl, rfl, rfl, rfl⟩

end Literal

end DialogueScript
