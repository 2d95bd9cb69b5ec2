import DialogueScript.Compile.Literal
import DialogueScript.Proofs.Syntax.Language
import DialogueScript.Text.Decimal

/-!
# Decimal numerals are read back

Writing a number in decimal and reading its digits gives the number (`decimal?_digits`). A 16-bit
integer in decimal, with its sign, is therefore a literal with the integer as its value
(`value_ofInt`, `ofInt_mem_literal`).
-/

set_option autoImplicit false
set_option relaxedAutoImplicit false

namespace DialogueScript

/-! ### Digits -/

namespace Decimal

/-- Assumes: a number below ten. Its digit is read as the number. -/
theorem decimalDigit?_digit {n : Nat} (hn : n < 10) :
    Numeral.decimalDigit? (digit n) = some n := by
  revert n
  decide

theorem isDigit_digit {n : Nat} (hn : n < 10) : (digit n).isDigit = true := by
  revert n
  decide

/-- A number is written in digits. The recursion takes the last digit off. -/
theorem isDigit_of_mem_digits {n : Nat} {c : Char} (hc : c ∈ digits n) : c.isDigit = true := by
  induction n using digits.induct with
  | case1 n hsmall =>
    rw [digits, if_pos hsmall, List.mem_singleton] at hc
    rw [hc]
    exact isDigit_digit hsmall
  | case2 n hlarge ih =>
    rw [digits, if_neg hlarge, List.mem_append, List.mem_singleton] at hc
    rcases hc with hmost | rfl
    · exact ih hmost
    · exact isDigit_digit (Nat.mod_lt n (by decide))

theorem digits_ne_nil (n : Nat) : digits n ≠ [] := by
  unfold digits
  split_ifs <;> simp

/-- Reading two runs of digits one behind the other is reading both together. -/
theorem extend?_append (base : Nat) (digit? : Char → Option Nat) (read : Nat)
    (first second : List Char) :
    Numeral.extend? base digit? read (first ++ second) =
      (Numeral.extend? base digit? read first).bind
        fun n ↦ Numeral.extend? base digit? n second := by
  induction first generalizing read with
  | nil => rfl
  | cons c rest ih =>
    rw [List.cons_append, Numeral.extend?, Numeral.extend?, Option.bind_assoc]
    exact congrArg _ (funext fun d ↦ ih _)

/-- The digits of a number are read as the number. -/
theorem decimal?_digits (n : Nat) : Numeral.decimal? (digits n) = some n := by
  have hextend : Numeral.extend? 10 Numeral.decimalDigit? 0 (digits n) = some n := by
    induction n using digits.induct with
    | case1 n hsmall =>
      rw [digits, if_pos hsmall, Numeral.extend?, decimalDigit?_digit hsmall, Option.bind_some,
        Numeral.extend?, Nat.zero_mul, Nat.zero_add]
    | case2 n hlarge ih =>
      rw [digits, if_neg hlarge, extend?_append, ih, Option.bind_some, Numeral.extend?,
        decimalDigit?_digit (Nat.mod_lt n (by decide)), Option.bind_some, Numeral.extend?,
        Nat.div_add_mod']
  obtain ⟨c, rest, hcons⟩ := List.exists_cons_of_ne_nil (digits_ne_nil n)
  rw [hcons] at hextend ⊢
  exact hextend

end Decimal

/-! ### Literals -/

namespace Literal

/-- The sign of a number, if it is negative, and its digits. -/
theorem toList_ofInt (n : Int) :
    (Decimal.ofInt n).toList = (if n < 0 then ['-'] else []) ++ Decimal.digits n.natAbs := by
  unfold Decimal.ofInt Decimal.ofNat
  split_ifs <;> simp

/-- Assumes: a literal of digits behind a sign or none. It is a decimal one. -/
theorem value_of_digits {sign digits : List Char} (hsign : sign = [] ∨ sign = ['-'])
    (hdigits : ∀ c ∈ digits, c.isDigit = true) {n : Int}
    (hn : decimalNumber? (sign ++ digits) = some n) :
    value (sign ++ digits) = .ok (Int16.ofInt n) := by
  have hx : 'x' ∉ sign ++ digits := by
    intro hmem
    rcases List.mem_append.mp hmem with hminus | hdigit
    · rcases hsign with rfl | rfl <;> simp at hminus
    · exact absurd (hdigits 'x' hdigit) (by decide)
  unfold value
  split
  · rename_i rest heq
    exact absurd (heq ▸ by simp) hx
  · rw [hn]

/-- Digits are no sign. -/
theorem decimalNumber?_digits {digits : List Char} (hdigits : ∀ c ∈ digits, c.isDigit = true) :
    decimalNumber? digits = ((Numeral.decimal? digits).map Int.ofNat).bind fun n ↦
      if -0x80000000 ≤ n ∧ n < 0x80000000 then some n else none := by
  unfold decimalNumber?
  split
  · exact absurd (hdigits '+' List.mem_cons_self) (by decide)
  · exact absurd (hdigits '-' List.mem_cons_self) (by decide)
  · rfl

/-- Assumes: a number of 32 bits. Written in decimal it is read as the number. -/
theorem decimalNumber?_ofInt {n : Int} (hn : -0x80000000 ≤ n ∧ n < 0x80000000) :
    decimalNumber? (Decimal.ofInt n).toList = some n := by
  rw [toList_ofInt]
  split_ifs with hneg
  · have habs : -Int.ofNat n.natAbs = n := by
      rw [Int.ofNat_eq_natCast, Int.ofNat_natAbs_of_nonpos hneg.le, Int.neg_neg]
    change ((Numeral.decimal? (Decimal.digits n.natAbs)).map fun m ↦ -Int.ofNat m).bind _ = _
    rw [Decimal.decimal?_digits, Option.map_some, Option.bind_some, habs, if_pos hn]
  · have habs : Int.ofNat n.natAbs = n := Int.natAbs_of_nonneg (not_lt.mp hneg)
    rw [List.nil_append, decimalNumber?_digits fun c ↦ Decimal.isDigit_of_mem_digits,
      Decimal.decimal?_digits, Option.map_some, Option.bind_some, habs, if_pos hn]

/-- A 16-bit integer in decimal is a literal with the integer as its value. -/
theorem value_ofInt (n : Int16) : value (Decimal.ofInt n.toInt).toList = .ok n := by
  have hrange : -0x80000000 ≤ n.toInt ∧ n.toInt < 0x80000000 := by
    have hlow := n.le_toInt
    have hhigh := n.toInt_lt
    omega
  have hnumber := decimalNumber?_ofInt hrange
  rw [toList_ofInt] at hnumber ⊢
  rw [value_of_digits (by split_ifs <;> simp) (fun c ↦ Decimal.isDigit_of_mem_digits) hnumber,
    Int16.ofInt_toInt]

/-- A number in decimal is a literal of the grammar. -/
theorem ofInt_mem_literal (n : Int) :
    (Decimal.ofInt n).toList ∈ Syntax.Spelling.literal := by
  obtain ⟨head, tail, hcons⟩ := List.exists_cons_of_ne_nil (Decimal.digits_ne_nil n.natAbs)
  have hdigit : ∀ c ∈ head :: tail, c.isDigit = true :=
    fun c hc ↦ Decimal.isDigit_of_mem_digits (hcons ▸ hc)
  rw [toList_ofInt, hcons]
  refine Syntax.Spelling.mem_literal.mpr ⟨_, head, tail, rfl, ?_, hdigit head List.mem_cons_self,
    fun c hc ↦ ?_⟩
  · split_ifs
    · exact Or.inr rfl
    · exact Or.inl rfl
  · simp [Char.isAlphanum, hdigit c (List.mem_cons_of_mem head hc)]

end Literal

end DialogueScript
