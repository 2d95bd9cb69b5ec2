import DialogueScript.Proofs.Text.Newline
import DialogueScript.Text.Position
import Mathlib.Data.List.TakeWhile
import Mathlib.Order.Monotone.Basic

/-!
# Line feeds and pairs

A line ends with a line feed or with a pair of a carriage return and a line feed. `pairFeeds` puts a
carriage return in front of every line feed that has none, so that each line of its result ends with
a pair.

Nothing that the lines of a text are counted and cleaned by tells a text from its paired form: the
position behind it is the same (`after_pairFeeds`), and so is what is left without line endings
(`stripNewlines_pairFeeds`). A text may be paired in parts if it is not cut inside a pair
(`pairFeeds_append`), and `pairedOffset` says where a character of a text stands in its paired form.
-/

set_option autoImplicit false
set_option relaxedAutoImplicit false

namespace DialogueScript

/-! ### Pairing line feeds -/

/-- A text with a carriage return in front of every line feed that has none, where `returned` says
whether a carriage return stands in front of the text. -/
def pairFeedsFrom (returned : Bool) : List Char → List Char
  | [] => []
  | c :: rest =>
    (if c = '\n' ∧ returned = false then ['\r', '\n'] else [c]) ++ pairFeedsFrom (c == '\r') rest

/-- A text with a carriage return in front of every line feed that has none. -/
def pairFeeds (text : List Char) : List Char :=
  pairFeedsFrom false text

example : pairFeeds ['\n', '\r', '\n', '\r', '\r', '\n', '\n'] =
    ['\r', '\n', '\r', '\n', '\r', '\r', '\n', '\r', '\n'] := rfl

@[simp] theorem pairFeeds_nil : pairFeeds [] = [] := rfl

theorem pairFeeds_cons {c : Char} (hreturn : c ≠ '\r') (hfeed : c ≠ '\n') (rest : List Char) :
    pairFeeds (c :: rest) = c :: pairFeeds rest := by
  rw [pairFeeds, pairFeedsFrom, if_neg fun h ↦ hfeed h.1, beq_false_of_ne hreturn]
  rfl

@[simp] theorem pairFeeds_eq_nil_iff {text : List Char} : pairFeeds text = [] ↔ text = [] := by
  cases text with
  | nil => simp
  | cons c rest =>
    rw [pairFeeds, pairFeedsFrom]
    split_ifs <;> simp

/-- A text without line feeds has none to pair. -/
theorem pairFeeds_eq_self {text : List Char} (h : '\n' ∉ text) : pairFeeds text = text := by
  unfold pairFeeds
  generalize false = returned
  induction text generalizing returned with
  | nil => rfl
  | cons c rest ih =>
    rw [List.mem_cons, not_or] at h
    rw [pairFeedsFrom, if_neg fun hc ↦ h.1 hc.1.symm, ih h.2]
    rfl

/-- Pairing adds carriage returns where there are line feeds, and nothing else. -/
theorem mem_of_mem_pairFeeds {text : List Char} {c : Char} (h : c ∈ pairFeeds text) :
    c ∈ text ∨ (c = '\r' ∧ '\n' ∈ text) := by
  unfold pairFeeds at h
  generalize false = returned at h
  induction text generalizing returned with
  | nil => exact absurd h List.not_mem_nil
  | cons d rest ih =>
    rw [pairFeedsFrom, List.mem_append] at h
    rcases h with hhead | hrest
    · split_ifs at hhead with hd
      · rw [hd.1]
        rcases List.mem_cons.mp hhead with rfl | hfeed
        · exact Or.inr ⟨rfl, List.mem_cons_self⟩
        · exact Or.inl (List.mem_cons.mpr (Or.inl (List.mem_singleton.mp hfeed)))
      · exact Or.inl (by simpa using Or.inl (List.mem_singleton.mp hhead))
    · exact (ih _ hrest).imp (List.mem_cons_of_mem d) (And.imp_right (List.mem_cons_of_mem d))

/-! ### Positions and contents -/

/-- A pair moves a position as a line feed does. -/
theorem Position.after_pairFeeds (p : Position) (text : List Char) :
    p.after (pairFeeds text) = p.after text := by
  unfold pairFeeds
  generalize false = returned
  induction text generalizing p returned with
  | nil => rfl
  | cons c rest ih =>
    rw [pairFeedsFrom, after_append, ih, after_cons]
    split_ifs with hc
    · rw [hc.1]
      rfl
    · rfl

/-- Behind a carriage return a text keeps its first character when it is paired. -/
theorem head?_pairFeedsFrom_true (text : List Char) :
    (pairFeedsFrom true text).head? = text.head? := by
  cases text with
  | nil => rfl
  | cons c rest => rw [pairFeedsFrom, if_neg fun h ↦ Bool.noConfusion h.2]; rfl

/-- A paired text without its line endings is the text without its line endings. -/
theorem stripNewlines_pairFeeds (text : List Char) :
    stripNewlines (pairFeeds text) = stripNewlines text := by
  unfold pairFeeds
  generalize false = returned
  induction text generalizing returned with
  | nil => rfl
  | cons c rest ih =>
    rw [pairFeedsFrom]
    by_cases hfeed : c = '\n'
    · subst hfeed
      split_ifs
      · change stripNewlines ('\r' :: '\n' :: pairFeedsFrom false rest) = _
        rw [stripNewlines_cons, stripNewlines_cons, stripNewlines_cons, ih]
        rfl
      · change stripNewlines ('\n' :: pairFeedsFrom false rest) = _
        rw [stripNewlines_cons, stripNewlines_cons, ih]
        rfl
    · rw [if_neg fun h ↦ hfeed h.1, List.singleton_append, stripNewlines_cons, stripNewlines_cons,
        ih]
      by_cases hreturn : c = '\r'
      · subst hreturn
        rw [beq_self_eq_true, head?_pairFeedsFrom_true]
      · simp [hreturn]

/-! ### Parts of a text -/

/-- Pairing goes on behind a part of a text with the last character of the part in mind. -/
theorem pairFeedsFrom_append (returned : Bool) (first second : List Char) :
    pairFeedsFrom returned (first ++ second) =
      pairFeedsFrom returned first ++
        pairFeedsFrom (((first.getLast?).map (· == '\r')).getD returned) second := by
  induction first generalizing returned with
  | nil => rfl
  | cons c rest ih =>
    rw [List.cons_append, pairFeedsFrom, pairFeedsFrom, ih, List.append_assoc]
    cases rest with
    | nil => rfl
    | cons d later => rw [List.getLast?_cons_cons]; simp [List.getLast?_cons]

/-- What begins with no line feed is paired alike behind all that may stand in front of it. -/
theorem pairFeedsFrom_of_head {text : List Char} (h : text.head? ≠ some '\n') (returned : Bool) :
    pairFeedsFrom returned text = pairFeeds text := by
  cases text with
  | nil => rfl
  | cons c rest =>
    have hc : c ≠ '\n' := fun hc ↦ h (congrArg some hc)
    rw [pairFeeds, pairFeedsFrom, pairFeedsFrom, if_neg fun h ↦ hc h.1, if_neg fun h ↦ hc h.1]

/-- Assumes: a text is not cut inside a pair. Its parts may be paired one by one. -/
theorem pairFeeds_append {first second : List Char} (h : CutsNoPair first second) :
    pairFeeds (first ++ second) = pairFeeds first ++ pairFeeds second := by
  rw [pairFeeds, pairFeedsFrom_append, ← pairFeeds]
  congr 1
  by_cases hhead : second.head? = some '\n'
  · have hlast : first.getLast? ≠ some '\r' := fun hlast ↦ h ⟨hlast, hhead⟩
    have hreturned : ((first.getLast?).map (· == '\r')).getD false = false := by
      cases hc : first.getLast? with
      | none => rfl
      | some c => exact beq_false_of_ne fun heq ↦ hlast (by rw [hc, heq])
    rw [hreturned, pairFeeds]
  · exact pairFeedsFrom_of_head hhead _

/-! ### Runs of characters -/

/-- A text begins as its paired form does, up to the carriage return of a line feed. -/
theorem head?_pairFeeds_cons (c : Char) (rest : List Char) :
    (pairFeeds (c :: rest)).head? = some (if c = '\n' then '\r' else c) := by
  rw [pairFeeds, pairFeedsFrom]
  by_cases hc : c = '\n' <;> simp [hc]

section Runs

variable {ok : Char → Bool} (hok : ok '\r' = ok '\n')

include hok

/-- Assumes: a class that holds both characters of a pair or none of them. The longest run of the
class does not end inside a pair. -/
theorem cutsNoPair_takeWhile (text : List Char) :
    CutsNoPair (text.takeWhile ok) (text.dropWhile ok) := by
  rintro ⟨hlast, hhead⟩
  have hreturn : ok '\r' = true := List.mem_takeWhile_imp (List.mem_of_getLast? hlast)
  have hfeed := List.head?_dropWhile_not ok text
  rw [hhead] at hfeed
  rw [hok, hfeed] at hreturn
  exact Bool.noConfusion hreturn

/-- Assumes: a class that holds both characters of a pair or none of them. The longest run of the
class in a paired text is the paired form of the longest run in the text. -/
theorem takeWhile_pairFeeds (text : List Char) :
    (pairFeeds text).takeWhile ok = pairFeeds (text.takeWhile ok) := by
  have hrun : ∀ c ∈ pairFeeds (text.takeWhile ok), ok c = true := by
    intro c hc
    rcases mem_of_mem_pairFeeds hc with hmem | ⟨rfl, hfeed⟩
    · exact List.mem_takeWhile_imp hmem
    · rw [hok]
      exact List.mem_takeWhile_imp hfeed
  have hrest : (pairFeeds (text.dropWhile ok)).takeWhile ok = [] := by
    have hhead := List.head?_dropWhile_not ok text
    generalize text.dropWhile ok = behind at hhead ⊢
    cases behind with
    | nil => rfl
    | cons c rest =>
      have hfirst : ok (if c = '\n' then '\r' else c) = false := by
        split_ifs with hc
        · rw [hok, ← hc]
          exact hhead
        · exact hhead
      obtain ⟨later, hlater⟩ := List.head?_eq_some_iff.mp (head?_pairFeeds_cons c rest)
      rw [hlater, List.takeWhile_cons, hfirst]
      rfl
  conv_lhs => rw [← List.takeWhile_append_dropWhile (p := ok) (l := text)]
  rw [pairFeeds_append (cutsNoPair_takeWhile hok text), List.takeWhile_append_of_pos hrun, hrest,
    List.append_nil]

end Runs

/-- Texts without carriage returns begin a text and its paired form alike. -/
theorem take_pairFeeds_eq_iff {word : List Char} (hreturn : '\r' ∉ word) (hfeed : '\n' ∉ word)
    (text : List Char) (n : Nat) : (pairFeeds text).take n = word ↔ text.take n = word := by
  induction n generalizing text word with
  | zero => rfl
  | succ n ih =>
    cases text with
    | nil => rfl
    | cons c rest =>
      cases word with
      | nil =>
        have hne : pairFeeds (c :: rest) ≠ [] := by simp
        simp [hne]
      | cons d later =>
        rw [List.mem_cons, not_or] at hreturn hfeed
        by_cases hc : c = '\n' ∨ c = '\r'
        · -- both texts begin with a character of a pair, the word does not
          have hhead : (pairFeeds (c :: rest)).head? = some '\r' := by
            rw [head?_pairFeeds_cons]
            rcases hc with rfl | rfl <;> rfl
          obtain ⟨others, hothers⟩ := List.head?_eq_some_iff.mp hhead
          rw [hothers, List.take_succ_cons, List.take_succ_cons, List.cons_eq_cons,
            List.cons_eq_cons]
          rcases hc with rfl | rfl
          · exact iff_of_false (fun h ↦ hreturn.1 h.1) fun h ↦ hfeed.1 h.1
          · exact iff_of_false (fun h ↦ hreturn.1 h.1) fun h ↦ hreturn.1 h.1
        · rw [not_or] at hc
          rw [pairFeeds_cons hc.2 hc.1, List.take_succ_cons, List.take_succ_cons,
            List.cons_eq_cons, List.cons_eq_cons, ih hreturn.2 hfeed.2]

/-! ### Where characters stand -/

/-- The number of characters in front of a character of a text once the text is paired. Behind the
end it goes on by one for each character. -/
def pairedOffset (text : List Char) (offset : Nat) : Nat :=
  (pairFeeds (text.take offset)).length + (offset - text.length)

@[simp] theorem pairedOffset_zero (text : List Char) : pairedOffset text 0 = 0 := by
  simp [pairedOffset]

theorem pairedOffset_append (first second : List Char) :
    pairedOffset (first ++ second) first.length = (pairFeeds first).length := by
  simp [pairedOffset]

theorem length_pairFeeds_lt (text : List Char) (c : Char) :
    (pairFeeds text).length < (pairFeeds (text ++ [c])).length := by
  rw [pairFeeds, pairFeeds, pairFeedsFrom_append, List.length_append, pairFeedsFrom]
  split_ifs <;> simp

/-- Pairing keeps characters in their order. -/
theorem strictMono_pairedOffset (text : List Char) : StrictMono (pairedOffset text) := by
  refine strictMono_nat_of_lt_succ fun offset ↦ ?_
  unfold pairedOffset
  by_cases hlt : offset < text.length
  · have hlonger := length_pairFeeds_lt (text.take offset) text[offset]
    rw [List.take_append_getElem hlt] at hlonger
    omega
  · have hle : text.length ≤ offset := Nat.le_of_not_lt hlt
    rw [List.take_of_length_le hle, List.take_of_length_le (Nat.le_succ_of_le hle)]
    omega

/-- The beginning of a paired text is the paired form of the beginning of the text. -/
theorem take_pairedOffset (text : List Char) (offset : Nat) :
    (pairFeeds text).take (pairedOffset text offset) = pairFeeds (text.take offset) := by
  unfold pairedOffset
  by_cases hle : text.length ≤ offset
  · rw [List.take_of_length_le hle, List.take_of_length_le (Nat.le_add_right _ _)]
  · have hsub : offset - text.length = 0 := by omega
    have hsplit := pairFeedsFrom_append false (text.take offset) (text.drop offset)
    rw [List.take_append_drop, ← pairFeeds, ← pairFeeds] at hsplit
    rw [hsub, Nat.add_zero, hsplit, List.take_left]

end DialogueScript
