import DialogueScript.Text.Newline
import Mathlib.Data.List.Basic

/-!
# Removing line endings in one scan

A line feed is a line ending, and so is a carriage return with a line feed right behind it.
`stripNewlines` goes over a text twice, first for the pairs and then for the line feeds, and its
second pass meets carriage returns and line feeds that the first has brought together. Yet it
removes the characters that stand in a line ending of the given text (`InLineEnding`) and no others:
each character goes or stays by what is right behind it in the text (`stripNewlines_cons`), so that
a text may be cleaned in parts if no pair is cut (`stripNewlines_append`). The main statement is
`stripNewlines_one_scan`.
-/

set_option autoImplicit false
set_option relaxedAutoImplicit false

namespace DialogueScript

/-! ### One character after another -/

/-- What is left of a character and a text behind it: a line feed goes, and so does a carriage
return in front of one. -/
theorem stripNewlines_cons (c : Char) (rest : List Char) :
    stripNewlines (c :: rest) =
      if c = '\n' ∨ (c = '\r' ∧ rest.head? = some '\n') then stripNewlines rest
      else c :: stripNewlines rest := by
  by_cases hpair : c = '\r' ∧ rest.head? = some '\n'
  · obtain ⟨rfl, hhead⟩ := hpair
    obtain ⟨later, rfl⟩ := List.head?_eq_some_iff.mp hhead
    have hfeed : dropPairs ('\n' :: later) = '\n' :: dropPairs later :=
      dropPairs.eq_2 '\n' later (by simp)
    rw [if_pos (Or.inr ⟨rfl, rfl⟩), stripNewlines, stripNewlines, dropPairs, hfeed]
    rfl
  · have hcons : dropPairs (c :: rest) = c :: dropPairs rest := by
      refine dropPairs.eq_2 c rest fun later hc hrest ↦ hpair ⟨hc, ?_⟩
      rw [hrest]
      rfl
    rw [stripNewlines, hcons]
    by_cases hc : c = '\n'
    · rw [if_pos (Or.inl hc), hc]
      rfl
    · have hkeep : (c != '\n') = true := bne_iff_ne.mpr hc
      rw [if_neg (not_or.mpr ⟨hc, hpair⟩), List.filter_cons, if_pos hkeep, stripNewlines]

theorem stripNewlines_feed (rest : List Char) :
    stripNewlines ('\n' :: rest) = stripNewlines rest := by
  rw [stripNewlines_cons, if_pos (Or.inl rfl)]

theorem stripNewlines_pair (rest : List Char) :
    stripNewlines ('\r' :: '\n' :: rest) = stripNewlines rest := by
  rw [stripNewlines_cons, if_pos (Or.inr ⟨rfl, rfl⟩), stripNewlines_feed]

/-- Assumes: a text that does not begin with a line feed. A carriage return in front of it stays. -/
theorem stripNewlines_return {rest : List Char} (h : rest.head? ≠ some '\n') :
    stripNewlines ('\r' :: rest) = '\r' :: stripNewlines rest := by
  have hkeep : ¬('\r' = '\n' ∨ '\r' = '\r' ∧ rest.head? = some '\n') := by simp [h]
  rw [stripNewlines_cons, if_neg hkeep]

/-- Removing line endings leaves all else in its order. -/
theorem sublist_stripNewlines (text : List Char) : (stripNewlines text).Sublist text := by
  induction text with
  | nil => exact List.Sublist.slnil
  | cons c rest ih =>
    rw [stripNewlines_cons]
    split_ifs
    · exact ih.cons c
    · exact ih.cons_cons c

/-- A text without line feeds has no line endings. -/
theorem stripNewlines_eq_self {text : List Char} (h : '\n' ∉ text) : stripNewlines text = text := by
  induction text with
  | nil => rfl
  | cons c rest ih =>
    rw [List.mem_cons, not_or] at h
    have hkeep : ¬(c = '\n' ∨ c = '\r' ∧ rest.head? = some '\n') := by
      rintro (hfeed | ⟨-, hhead⟩)
      · exact h.1 hfeed.symm
      · exact h.2 (List.mem_of_head? hhead)
    rw [stripNewlines_cons, if_neg hkeep, ih h.2]

/-! ### Parts of a text -/

/-- A text and what stands behind it are not the two halves of a pair. -/
def CutsNoPair (text behind : List Char) : Prop :=
  ¬(text.getLast? = some '\r' ∧ behind.head? = some '\n')

theorem CutsNoPair.of_head {text behind : List Char} (h : behind.head? ≠ some '\n') :
    CutsNoPair text behind :=
  fun hpair ↦ h hpair.2

theorem CutsNoPair.of_last {text behind : List Char} (h : text.getLast? ≠ some '\r') :
    CutsNoPair text behind :=
  fun hpair ↦ h hpair.1

/-- Assumes: a text is not cut inside a pair, and its second part is not either. Nor is it where the
second part is cut. -/
theorem CutsNoPair.append {first second behind : List Char}
    (hfirst : CutsNoPair first (second ++ behind)) (hsecond : CutsNoPair second behind) :
    CutsNoPair (first ++ second) behind := by
  cases second with
  | nil => rwa [List.append_nil]
  | cons c rest =>
    rwa [CutsNoPair, List.getLast?_append_of_ne_nil _ (List.cons_ne_nil c rest)]

/-- Assumes: a text is not cut inside a pair. Its parts may be cleaned one by one. -/
theorem stripNewlines_append {first second : List Char} (h : CutsNoPair first second) :
    stripNewlines (first ++ second) = stripNewlines first ++ stripNewlines second := by
  induction first with
  | nil => rfl
  | cons c rest ih =>
    rw [List.cons_append, stripNewlines_cons, stripNewlines_cons]
    cases rest with
    | nil =>
      -- the character in front of the cut is in a line ending only if it is a line feed
      have hpair : ¬(c = '\r' ∧ second.head? = some '\n') :=
        fun hpair ↦ h ⟨congrArg some hpair.1, hpair.2⟩
      have hnil : stripNewlines [] = [] := rfl
      by_cases hfeed : c = '\n' <;> simp [hfeed, hpair, hnil]
    | cons d later =>
      rw [CutsNoPair, List.getLast?_cons_cons] at h
      rw [ih h, List.cons_append, List.head?_cons, List.head?_cons]
      split_ifs <;> rfl

/-- Assumes: a text that does not end with a carriage return. A line feed that is inserted behind it
adds nothing but a line ending. -/
theorem stripNewlines_insert {first : List Char} (h : first.getLast? ≠ some '\r')
    (second : List Char) :
    stripNewlines (first ++ '\n' :: second) = stripNewlines (first ++ second) := by
  rw [stripNewlines_append (.of_last h), stripNewlines_append (.of_last h), stripNewlines_feed]

/-! ### Line endings by their places -/

/-- The character at an index of a text stands in a line ending: it is a line feed, or a carriage
return with a line feed right behind it. -/
def InLineEnding (text : List Char) (i : Nat) : Prop :=
  text[i]? = some '\n' ∨ (text[i]? = some '\r' ∧ text[i + 1]? = some '\n')

instance (text : List Char) : DecidablePred (InLineEnding text) :=
  fun _ ↦ inferInstanceAs (Decidable (_ ∨ _))

/-- The characters of a text that stand in no line ending. -/
def outsideLineEndings (text : List Char) : List Char :=
  (text.zipIdx.filter fun entry ↦ ¬InLineEnding text entry.2).map Prod.fst

/-- A character in front of a text moves the places in the text by one. -/
theorem outsideLineEndings_cons (c : Char) (rest : List Char) :
    outsideLineEndings (c :: rest) =
      (if InLineEnding (c :: rest) 0 then [] else [c]) ++ outsideLineEndings rest := by
  have hmoved : (rest.zipIdx 1).filter (fun entry ↦ ¬InLineEnding (c :: rest) entry.2) =
      (rest.zipIdx.filter fun entry ↦ ¬InLineEnding rest entry.2).map (Prod.map id (· + 1)) := by
    rw [List.zipIdx_succ, List.filter_map]
    rfl
  rw [outsideLineEndings, List.zipIdx_cons, List.filter_cons, Nat.zero_add, hmoved]
  by_cases hending : InLineEnding (c :: rest) 0 <;>
    simp [hending, outsideLineEndings, Function.comp_def]

/-- Both passes together remove what stands in a line ending. -/
theorem stripNewlines_eq_outsideLineEndings (text : List Char) :
    stripNewlines text = outsideLineEndings text := by
  induction text with
  | nil => rfl
  | cons c rest ih =>
    have hfirst : InLineEnding (c :: rest) 0 ↔ c = '\n' ∨ (c = '\r' ∧ rest.head? = some '\n') := by
      simp [InLineEnding, List.head?_eq_getElem?]
    rw [stripNewlines_cons, outsideLineEndings_cons, ih]
    simp only [hfirst]
    split_ifs <;> rfl

/-! ### Texts of nothing but line endings -/

/-- Nothing is left of a text exactly if it is one line ending behind another. The induction goes
along the first pass, which takes a pair or a single character. -/
theorem stripNewlines_eq_nil_iff (text : List Char) :
    stripNewlines text = [] ↔ ∃ endings : List (List Char),
      (∀ ending ∈ endings, ending = ['\n'] ∨ ending = ['\r', '\n']) ∧ endings.flatten = text := by
  constructor
  · intro h
    induction text using dropPairs.induct with
    | case1 rest ih =>
      rw [stripNewlines_pair] at h
      obtain ⟨endings, hendings, rfl⟩ := ih h
      exact ⟨['\r', '\n'] :: endings, List.forall_mem_cons.mpr ⟨Or.inr rfl, hendings⟩, rfl⟩
    | case2 c rest hpair ih =>
      rw [stripNewlines_cons] at h
      split_ifs at h with hending
      obtain ⟨endings, hendings, rfl⟩ := ih h
      have hfeed : c = '\n' := by
        refine hending.resolve_right fun ⟨hreturn, hhead⟩ ↦ ?_
        obtain ⟨later, hlater⟩ := List.head?_eq_some_iff.mp hhead
        exact hpair later hreturn hlater
      exact ⟨['\n'] :: endings, List.forall_mem_cons.mpr ⟨Or.inl rfl, hendings⟩, by rw [hfeed]; rfl⟩
    | case3 => exact ⟨[], by simp, rfl⟩
  · rintro ⟨endings, hendings, rfl⟩
    induction endings with
    | nil => rfl
    | cons ending later ih =>
      obtain ⟨hending, hlater⟩ := List.forall_mem_cons.mp hendings
      rw [List.flatten_cons]
      rcases hending with rfl | rfl
      · exact (stripNewlines_feed _).trans (ih hlater)
      · exact (stripNewlines_pair _).trans (ih hlater)

/-! ### The main statement -/

/-- Removing line endings in two passes removes the characters that stand in one and no others. A
carriage return that has no line feed right behind it stays, even if one comes to stand there. There
are no line feeds in the result, it has no line endings, and it is empty exactly for a text of
nothing else. A text may be cleaned in parts if no pair is cut. -/
theorem stripNewlines_one_scan (text : List Char) :
    stripNewlines text = outsideLineEndings text ∧
      (∀ before behind, text = before ++ '\r' :: behind → behind.head? ≠ some '\n' →
        stripNewlines text = stripNewlines before ++ '\r' :: stripNewlines behind) ∧
      '\n' ∉ stripNewlines text ∧
      stripNewlines (stripNewlines text) = stripNewlines text ∧
      (stripNewlines text = [] ↔ ∃ endings : List (List Char),
        (∀ ending ∈ endings, ending = ['\n'] ∨ ending = ['\r', '\n']) ∧
          endings.flatten = text) ∧
      ∀ behind, CutsNoPair text behind →
        stripNewlines (text ++ behind) = stripNewlines text ++ stripNewlines behind := by
  have hnoFeed : '\n' ∉ stripNewlines text := newline_notMem_stripNewlines text
  refine ⟨stripNewlines_eq_outsideLineEndings text, ?_, hnoFeed, stripNewlines_eq_self hnoFeed,
    stripNewlines_eq_nil_iff text, fun _ ↦ stripNewlines_append⟩
  rintro before behind rfl hhead
  have hcut : CutsNoPair before ('\r' :: behind) := .of_head (by simp)
  rw [stripNewlines_append hcut, stripNewlines_return hhead]

/-- In a text of two carriage returns and two line feeds, the first return comes to stand in front
of the last feed when the pair between them is gone. It stays, also with more text behind it. -/
theorem stripNewlines_one_scan_nested :
    ['\r', '\n', '\n'].head? ≠ some '\n' ∧
      stripNewlines ['\r', '\r', '\n', '\n'] =
        stripNewlines [] ++ '\r' :: stripNewlines ['\r', '\n', '\n'] ∧
      CutsNoPair ['\r', '\r', '\n', '\n'] ['\n', 'a'] ∧
      stripNewlines (['\r', '\r', '\n', '\n'] ++ ['\n', 'a']) =
        stripNewlines ['\r', '\r', '\n', '\n'] ++ stripNewlines ['\n', 'a'] := by
  obtain ⟨-, hreturn, -, -, -, happend⟩ := stripNewlines_one_scan ['\r', '\r', '\n', '\n']
  have hhead : ['\r', '\n', '\n'].head? ≠ some '\n' := by decide
  have hcut : CutsNoPair ['\r', '\r', '\n', '\n'] ['\n', 'a'] := .of_last (by decide)
  exact ⟨hhead, hreturn [] ['\r', '\n', '\n'] rfl hhead, hcut, happend ['\n', 'a'] hcut⟩

end DialogueScript
