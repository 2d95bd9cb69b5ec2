import DialogueScript.Proofs.Syntax.Reading

/-!
# What parsers blame

A syntax error comes from the rules that failed, at any depth of a trail, and from what becomes of
them when they are folded into the furthest failure. `Trail.Blames` says of all of them that they
failed fairly, where what is fair for a rule may be anything about the text in front of it.

To record a failure never invents one: a rule takes the place of rules that failed with it, or is
left out, so the furthest failure is as fair as the trail (`Furthest.Fair.follow`), and behind a
rule that failed some rule is left (`Furthest.rules_close_ne_nil`).

`Parser.Blames` says that a parser leaves a fair trail behind one text and in front of another. It
is closed under the combinators, for which `Parser.Reads` tells how far each of them has read.
-/

set_option autoImplicit false
set_option relaxedAutoImplicit false

namespace DialogueScript.Syntax

variable {fair : Rule → List Char → Prop} {source : List Char}

/-! ### Trails and the furthest failure -/

/-- Every rule that failed, at any depth of a trail, failed fairly behind a part of a source. -/
def Trail.Blames (fair : Rule → List Char → Prop) (source : List Char) : Trail → Prop
  | empty => True
  | tried rule offset failed inner later =>
    (failed = true → offset ≤ source.length ∧ fair rule (source.take offset)) ∧
      Blames fair source inner ∧ Blames fair source later

theorem Trail.blames_append {first second : Trail} (hfirst : first.Blames fair source)
    (hsecond : second.Blames fair source) : (first ++ second).Blames fair source := by
  induction first with
  | empty => exact hsecond
  | tried rule offset failed inner later _ ih => exact ⟨hfirst.1, hfirst.2.1, ih hfirst.2.2⟩

namespace Furthest

/-- The rules of a furthest failure failed fairly there. Where no rule has failed yet, the furthest
place is the beginning. -/
structure Fair (fair : Rule → List Char → Prop) (source : List Char) (seen : Furthest) : Prop where
  each : ∀ rule ∈ seen.rules, seen.offset ≤ source.length ∧ fair rule (source.take seen.offset)
  unset : seen.rules = [] → seen.offset = 0

theorem fair_start : start.Fair fair source :=
  ⟨List.forall_mem_nil _, fun _ ↦ rfl⟩

/-- A rule that fails fairly is recorded fairly, whatever becomes of the rules tried for it. -/
theorem Fair.close {rule : Rule} {offset : Nat} {inner : Furthest} (before : Furthest)
    (hinner : inner.Fair fair source)
    (hrule : offset ≤ source.length ∧ fair rule (source.take offset)) :
    (close rule offset before inner).Fair fair source := by
  unfold Furthest.close
  split_ifs with hone hfurther hsame
  · exact hinner
  · exact hinner
  · refine ⟨fun other hother ↦ ?_, fun hnil ↦ absurd hnil (by simp)⟩
    rcases List.mem_append.mp hother with hkept | hnew
    · rw [hsame]
      exact hinner.each other (List.mem_of_mem_take hkept)
    · rw [List.mem_singleton.mp hnew]
      exact hrule
  · refine ⟨fun other hother ↦ ?_, fun hnil ↦ absurd hnil (by simp)⟩
    rw [List.mem_singleton.mp hother]
    exact hrule

/-- The furthest failure stays fair along a trail. -/
theorem Fair.follow {seen : Furthest} {trail : Trail} (hseen : seen.Fair fair source)
    (htrail : trail.Blames fair source) : (seen.follow trail).Fair fair source := by
  induction trail generalizing seen with
  | empty => exact hseen
  | tried rule offset failed inner later ihInner ihLater =>
    obtain ⟨hrule, hinner, hlater⟩ := htrail
    refine ihLater ?_ hlater
    split
    · exact (ihInner hseen hinner).close seen (hrule ‹_›)
    · exact ihInner hseen hinner

/-- Behind a rule that failed some rule is recorded. -/
theorem rules_close_ne_nil {rule : Rule} {offset : Nat} {inner : Furthest} (before : Furthest)
    (hinner : inner.Fair fair source) : (close rule offset before inner).rules ≠ [] := by
  unfold close
  split_ifs with hone hfurther hsame
  · intro hnil
    rw [count, hnil] at hone
    simp at hone
  · intro hnil
    have hzero := hinner.unset hnil
    omega
  · exact List.append_ne_nil_of_right_ne_nil _ (List.cons_ne_nil _ _)
  · exact List.cons_ne_nil _ _

end Furthest

/-! ### Parsers -/

namespace Parser

variable {α β : Type} {front rest : List Char}

/-- The text of the value that a parser gives is what it reads, and the value has a property in
front of the rest. -/
def Reads (parser : Parser α) (text : α → List Char) (property : α → List Char → Prop) : Prop :=
  ∀ ⦃cursor behind : Cursor⦄ ⦃value : α⦄, (parser cursor).result = some (value, behind) →
    property value behind.rest ∧ cursor.Reads (text value) behind

/-- What is read by a parser whose values have a property wherever they stand. -/
theorem Reads.of {parser : Parser α} (text : α → List Char) (property : α → Prop)
    (h : ∀ {cursor behind : Cursor} {value : α}, (parser cursor).result = some (value, behind) →
      property value ∧ cursor.Reads (text value) behind) :
    Reads parser text fun value _ ↦ property value :=
  fun _ _ _ hresult ↦ h hresult

theorem reads_char (c : Char) : Reads (char c) (fun _ ↦ [c]) fun _ _ ↦ True :=
  .of _ _ fun h ↦ ⟨trivial, reads_of_char h⟩

theorem reads_span (ok : Char → Bool) :
    Reads (span ok) id fun text later ↦ (∀ c ∈ text, ok c = true) ∧ Stops ok later := by
  intro cursor behind text h
  obtain ⟨htext, hreads, hstops⟩ := reads_of_span h
  exact ⟨⟨htext, hstops⟩, hreads⟩

theorem reads_span1 (ok : Char → Bool) :
    Reads (span1 ok) id fun text _ ↦ text ≠ [] ∧ ∀ c ∈ text, ok c = true := by
  intro cursor behind text h
  obtain ⟨hne, htext, hreads, _⟩ := reads_of_span1 h
  exact ⟨⟨hne, htext⟩, hreads⟩

theorem Reads.attempt {parser : Parser α} {text : α → List Char}
    {property : α → List Char → Prop} (h : Reads parser text property) (rule : Rule) :
    Reads (attempt rule parser) text property :=
  h

theorem Reads.optional {parser : Parser α} {text : α → List Char} {property : α → Prop}
    (h : Reads parser text fun value _ ↦ property value) :
    Reads (optional parser) (fun value ↦ (value.map text).getD []) fun value _ ↦
      ∀ v ∈ value, property v :=
  .of _ _ (reads_of_optional text property fun hresult ↦ h hresult)

theorem Reads.many {parser : Parser α} {text : α → List Char} {property : α → Prop}
    (h : Reads parser text fun value _ ↦ property value) :
    Reads (many parser) (·.flatMap text) fun values _ ↦ ∀ value ∈ values, property value :=
  .of _ _ fun hresult ↦
    (reads_of_many text (fun value _ ↦ property value) (fun hone ↦ h hone) hresult).imp_left
      InTurn.forall_mem

/-- A parser that stands behind one text and in front of another tries rules that fail fairly. -/
def Blames (fair : Rule → List Char → Prop) (parser : Parser α) (front rest : List Char) : Prop :=
  (parser ⟨front.length, rest⟩).trail.Blames fair (front ++ rest)

/-- A parser tries no rules. -/
def Quiet (parser : Parser α) : Prop :=
  ∀ cursor, (parser cursor).trail = .empty

theorem trail_bind (first : Parser α) (next : α → Parser β) (cursor : Cursor) :
    ((first >>= next) cursor).trail = (first cursor).trail ++
      ((first cursor).result.elim .empty fun found ↦ (next found.1 found.2).trail) := by
  change (Parser.bind first next cursor).trail = _
  unfold Parser.bind
  split <;> rename_i heq <;> rw [heq]
  · exact (Trail.append_empty _).symm
  · rfl

namespace Quiet

theorem pure (value : α) : Quiet (Pure.pure value : Parser α) := fun _ ↦ rfl

theorem bind {first : Parser α} {next : α → Parser β} (hfirst : Quiet first)
    (hnext : ∀ value, Quiet (next value)) : Quiet (first >>= next) := by
  intro cursor
  rw [trail_bind, hfirst]
  cases (first cursor).result with
  | none => rfl
  | some found => exact hnext found.1 found.2

theorem one (ok : Char → Bool) : Quiet (one ok) := by
  intro cursor
  unfold Parser.one
  split <;> rfl

theorem char (c : Char) : Quiet (char c) :=
  (one _).bind fun _ ↦ pure ()

theorem span (ok : Char → Bool) : Quiet (span ok) := fun _ ↦ rfl

theorem span1 (ok : Char → Bool) : Quiet (span1 ok) :=
  (one ok).bind fun head ↦ (span ok).bind fun tail ↦ pure (head :: tail)

theorem keyword (word : List Char) : Quiet (keyword word) := fun _ ↦ rfl

theorem atEnd : Quiet atEnd := fun _ ↦ rfl

theorem optional {parser : Parser α} (h : Quiet parser) : Quiet (optional parser) := by
  intro cursor
  unfold Parser.optional
  have hcursor := h cursor
  split <;> rename_i heq <;> rw [heq] at hcursor <;> exact hcursor

theorem blames {parser : Parser α} (h : Quiet parser) (front rest : List Char) :
    Blames fair parser front rest := by
  rw [Blames, h]
  trivial

end Quiet

namespace Blames

/-- A parser that goes on where a text has been read blames behind this text. -/
theorem behind {parser : Parser α} {text : List Char} {behind : Cursor}
    (hreads : Cursor.Reads ⟨front.length, rest⟩ text behind)
    (h : Blames fair parser (front ++ text) behind.rest) :
    (parser behind).trail.Blames fair (front ++ rest) := by
  obtain ⟨offset, later⟩ := behind
  obtain ⟨hrest, hoffset⟩ := hreads
  unfold Blames at h
  rw [List.length_append, List.append_assoc] at h
  rw [show rest = text ++ later from hrest, show offset = front.length + text.length from hoffset]
  exact h

/-- Assumes: what the first of two parsers reads is known, and behind it the second blames fairly.
So do both one behind another. -/
theorem bind {first : Parser α} {next : α → Parser β} {text : α → List Char}
    {property : α → List Char → Prop} (hreads : Reads first text property)
    (hfirst : Blames fair first front rest)
    (hnext : ∀ value later, property value later → rest = text value ++ later →
      Blames fair (next value) (front ++ text value) later) :
    Blames fair (first >>= next) front rest := by
  unfold Blames at hfirst ⊢
  rw [trail_bind]
  refine Trail.blames_append hfirst ?_
  cases hresult : (first ⟨front.length, rest⟩).result with
  | none => trivial
  | some found =>
    obtain ⟨hproperty, hread⟩ := hreads hresult
    exact behind hread (hnext found.1 found.2.rest hproperty hread.1)

/-- A first parser that tries no rules leaves the blame to the second. -/
theorem bind_quiet {first : Parser α} {next : α → Parser β} {text : α → List Char}
    {property : α → List Char → Prop} (hreads : Reads first text property) (hquiet : Quiet first)
    (hnext : ∀ value later, property value later → rest = text value ++ later →
      Blames fair (next value) (front ++ text value) later) :
    Blames fair (first >>= next) front rest :=
  bind hreads (hquiet.blames front rest) hnext

theorem orElse {first second : Parser α} (hfirst : Blames fair first front rest)
    (hsecond : Blames fair second front rest) : Blames fair (orElse first second) front rest := by
  unfold Blames Parser.orElse at *
  split
  · rename_i heq
    rw [heq] at hfirst
    exact Trail.blames_append hfirst hsecond
  · exact hfirst

theorem optional {parser : Parser α} (h : Blames fair parser front rest) :
    Blames fair (optional parser) front rest := by
  unfold Blames Parser.optional at *
  split <;> rename_i heq <;> rw [heq] at h <;> exact h

/-- Assumes: a rule may fail behind a text. An attempt at it blames as fairly as its parser. -/
theorem attempt {rule : Rule} {parser : Parser α} (hrule : fair rule front)
    (h : Blames fair parser front rest) : Blames fair (attempt rule parser) front rest := by
  refine ⟨fun _ ↦ ?_, h, trivial⟩
  dsimp only
  rw [List.take_left]
  exact ⟨by simp, hrule⟩

/-- Assumes: an attempt at a rule fails. Some rule is recorded. -/
theorem rules_follow_attempt_ne_nil {rule : Rule} {parser : Parser α} {cursor : Cursor}
    {seen : Furthest} (hseen : seen.Fair fair source)
    (h : (Parser.attempt rule parser cursor).trail.Blames fair source)
    (hfails : (Parser.attempt rule parser cursor).result = none) :
    (seen.follow (Parser.attempt rule parser cursor).trail).rules ≠ [] := by
  have hnone : (parser cursor).result = none := hfails
  unfold Parser.attempt
  rw [Furthest.follow, Furthest.follow, hnone]
  exact Furthest.rules_close_ne_nil seen (hseen.follow h.2.1)

/-- A repetition of a parser that fails at once blames as fairly as the parser. -/
theorem many_of_refuses {parser : Parser α} (hrefuses : Refuses parser rest)
    (h : Blames fair parser front rest) : Blames fair (many parser) front rest := by
  have hresult := hrefuses front.length
  unfold Blames at *
  rw [many]
  split
  · rename_i heq
    rw [heq] at h
    exact h
  · rename_i heq
    rw [heq] at hresult
    exact absurd hresult (by simp)

/-- Assumes: what a parser reads is known, and behind any number of values it blames fairly. So does
its repetition. The induction is on what is left of the source. -/
theorem many {parser : Parser α} {text : α → List Char} {property : α → Prop}
    (hreads : Reads parser text fun value _ ↦ property value)
    (h : ∀ (values : List α) later, (∀ value ∈ values, property value) →
      Blames fair parser (front ++ values.flatMap text) later) (rest : List Char) :
    Blames fair (Parser.many parser) front rest := by
  suffices hmore : ∀ values : List α, (∀ value ∈ values, property value) →
      Blames fair (Parser.many parser) (front ++ values.flatMap text) rest by
    simpa using hmore [] (List.forall_mem_nil _)
  induction hlength : rest.length using Nat.strong_induction_on generalizing rest with
  | _ length ih =>
    intro values hvalues
    have hparser := h values rest hvalues
    unfold Blames at hparser ⊢
    rw [Parser.many]
    split
    · rename_i heq
      rw [heq] at hparser
      exact hparser
    · rename_i trail value last heq
      have hresult := congrArg Outcome.result heq
      rw [heq] at hparser
      obtain ⟨hvalue, hread⟩ := hreads hresult
      split_ifs with hlt
      · refine Trail.blames_append hparser (behind hread ?_)
        rw [List.append_assoc, ← List.flatMap_singleton text value, ← List.flatMap_append]
        exact ih last.rest.length (hlength ▸ hlt) _ rfl _
          (List.forall_mem_append.mpr ⟨hvalues, List.forall_mem_singleton.mpr hvalue⟩)
      · exact hparser

end Blames

end Parser

end DialogueScript.Syntax
