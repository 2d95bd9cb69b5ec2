import DialogueScript.Text.Position
import Mathlib.Tactic.SplitIfs

/-!
# Positions as counted and as compared

Reading a text moves a position on and never back (`Position.le_after`), so that of two parts of a
text the one that begins first has the smaller position (`Position.after_take_le`). Reading at least
one character moves it on for certain (`Position.lt_after`).

`Position.scan` counts lines and columns with a rule of its own for each line ending. It comes to
the same as reading character by character (`Position.scan_eq_after`).

`locate` places an element of a list behind the texts of those in front of it
(`exists_of_mem_locate`).
-/

set_option autoImplicit false
set_option relaxedAutoImplicit false

namespace DialogueScript

namespace Position

/-! ### Order -/

theorem le_iff {p q : Position} :
    p ≤ q ↔ p.line < q.line ∨ (p.line = q.line ∧ p.column ≤ q.column) := by
  change ((compare p.line q.line).then (compare p.column q.column)).isLE = true ↔ _
  rw [Ordering.isLE_then_iff_or, Nat.compare_eq_lt, Nat.compare_eq_eq, Nat.isLE_compare]

protected theorem le_refl (p : Position) : p ≤ p :=
  le_iff.mpr (Or.inr ⟨rfl, Nat.le_refl p.column⟩)

protected theorem le_trans {p q r : Position} (hpq : p ≤ q) (hqr : q ≤ r) : p ≤ r := by
  rw [le_iff] at hpq hqr ⊢
  omega

theorem le_advance (p : Position) (c : Char) : p ≤ p.advance c := by
  rw [le_iff, advance]
  split_ifs
  · exact Or.inl (Nat.lt_succ_self p.line)
  · exact Or.inr ⟨rfl, Nat.le_succ p.column⟩

/-- Reading on never goes back. -/
theorem le_after (p : Position) (text : List Char) : p ≤ p.after text := by
  induction text generalizing p with
  | nil => exact p.le_refl
  | cons c rest ih => exact Position.le_trans (p.le_advance c) (ih (p.advance c))

protected theorem lt_iff {p q : Position} :
    p < q ↔ p.line < q.line ∨ (p.line = q.line ∧ p.column < q.column) := by
  change (compare p.line q.line).then (compare p.column q.column) = .lt ↔ _
  rw [Ordering.then_eq_lt, Nat.compare_eq_lt, Nat.compare_eq_eq, Nat.compare_eq_lt]

protected theorem lt_of_lt_of_le {p q r : Position} (hpq : p < q) (hqr : q ≤ r) : p < r := by
  rw [Position.lt_iff] at hpq ⊢
  rw [le_iff] at hqr
  omega

theorem lt_advance (p : Position) (c : Char) : p < p.advance c := by
  rw [Position.lt_iff, advance]
  split_ifs
  · exact Or.inl (Nat.lt_succ_self p.line)
  · exact Or.inr ⟨rfl, Nat.lt_succ_self p.column⟩

/-- Assumes: a text is not empty. Reading it goes forward. -/
theorem lt_after (p : Position) {text : List Char} (hne : text ≠ []) : p < p.after text := by
  obtain ⟨c, rest, rfl⟩ := List.exists_cons_of_ne_nil hne
  exact Position.lt_of_lt_of_le (p.lt_advance c) (le_after _ rest)

/-- A place that comes first in a text has the smaller position. -/
theorem after_take_le (p : Position) (text : List Char) {m n : Nat} (h : m ≤ n) :
    p.after (text.take m) ≤ p.after (text.take n) := by
  have hsplit : text.take n = text.take m ++ (text.drop m).take (n - m) := by
    rw [← List.take_add, Nat.add_sub_cancel' h]
  rw [hsplit, after_append]
  exact le_after _ _

/-! ### Line endings -/

/-- The position behind a text, where a line feed and a pair of a carriage return and a line feed
open the next line, and any other character is one column wide. -/
def scan (p : Position) : List Char → Position
  | '\r' :: '\n' :: rest => scan ⟨p.line + 1, 1⟩ rest
  | '\n' :: rest => scan ⟨p.line + 1, 1⟩ rest
  | _ :: rest => scan ⟨p.line, p.column + 1⟩ rest
  | [] => p

/-- A pair needs no rule of its own, since its line feed forgets the column. -/
theorem scan_eq_after (p : Position) (text : List Char) : p.scan text = p.after text := by
  induction p, text using scan.induct with
  | case1 p rest ih =>
    rw [scan, ih]
    rfl
  | case2 p rest ih =>
    rw [scan, ih]
    rfl
  | case3 p c rest hpair hfeed ih =>
    rw [scan, ih, after_cons, advance, if_neg]
    · exact fun hc ↦ hfeed hc
    · exact hpair
    · exact hfeed
  | case4 p => rfl

end Position

/-! ### Elements of a list -/

theorem locate_append {α : Type} (text : α → List Char) (place : Place) (first second : List α) :
    locate text place (first ++ second) =
      locate text place first ++ locate text (place.after (first.flatMap text)) second := by
  induction first generalizing place with
  | nil => rfl
  | cons a rest ih =>
    rw [List.cons_append, locate, locate, ih, List.flatMap_cons, Place.after_append]
    rfl

/-- Assumes: an element is located. Some elements of the list stand in front of it, and its place is
behind their texts. -/
theorem exists_of_mem_locate {α : Type} {text : α → List Char} {place : Place} {values : List α}
    {located : Located α} (h : located ∈ locate text place values) :
    ∃ front behind, values = front ++ located.value :: behind ∧
      located.place = place.after (front.flatMap text) := by
  induction values generalizing place with
  | nil => exact absurd h (by simp [locate])
  | cons value rest ih =>
    rcases List.mem_cons.mp h with rfl | hrest
    · exact ⟨[], rest, rfl, rfl⟩
    · obtain ⟨front, behind, hsplit, hplace⟩ := ih hrest
      refine ⟨value :: front, behind, by rw [hsplit, List.cons_append], ?_⟩
      rw [hplace, List.flatMap_cons, Place.after_append]

end DialogueScript
