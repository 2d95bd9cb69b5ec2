import DialogueScript.Syntax.Parser
import Mathlib.Data.List.TakeWhile

/-!
# What parsers read

The result of a parser depends on its trail in no way, and the results of the combinators are
determined by the results of their parts (`result_bind`, `result_optional`, `result_orElse`,
`result_many`). This module derives from these equations the two directions in which a grammar is
compared with its parser.

`Cursor.Reads` says that a text lies between two cursors. From the result of a parser the
`reads_of_*` theorems conclude what lies between, for every primitive and for `many`.

`Takes` says that a parser reads a text exactly, wherever it stands in front of a given rest, and
`Refuses` that it fails on a rest. Both are closed under the combinators. What a greedy parser takes
depends on the rest, and `Stops` is the condition that a run of characters cannot go on there.
-/

set_option autoImplicit false
set_option relaxedAutoImplicit false

namespace DialogueScript.Syntax

/-- A run of characters of a class cannot go on in a text. -/
def Stops (ok : Char → Bool) (text : List Char) : Prop :=
  ∀ c ∈ text.head?, ok c = false

@[simp] theorem stops_nil (ok : Char → Bool) : Stops ok [] := by
  simp [Stops]

@[simp] theorem stops_cons (ok : Char → Bool) (c : Char) (rest : List Char) :
    Stops ok (c :: rest) ↔ ok c = false := by
  simp [Stops]

/-- Assumes: the characters of a text are outside a class, and its rest stops the class. Then the
text with its rest stops the class. -/
theorem Stops.append {ok : Char → Bool} {text rest : List Char}
    (htext : ∀ c ∈ text, ok c = false) (hrest : Stops ok rest) : Stops ok (text ++ rest) := by
  cases text with
  | nil => exact hrest
  | cons c tail => exact (stops_cons ok c _).mpr (htext c (by simp))

/-- What stands behind the longest run of a class stops it. -/
theorem takeWhile_append_of_stops {ok : Char → Bool} {text rest : List Char}
    (htext : ∀ c ∈ text, ok c = true) (hrest : Stops ok rest) :
    (text ++ rest).takeWhile ok = text := by
  rw [List.takeWhile_append_of_pos htext]
  cases rest with
  | nil => simp
  | cons c tail => simp [(stops_cons ok c tail).mp hrest]

/-- Between two cursors lies a text. -/
def Cursor.Reads (cursor : Cursor) (text : List Char) (behind : Cursor) : Prop :=
  cursor.rest = text ++ behind.rest ∧ behind.offset = cursor.offset + text.length

namespace Cursor.Reads

theorem refl (cursor : Cursor) : cursor.Reads [] cursor :=
  ⟨rfl, rfl⟩

theorem trans {first second third : Cursor} {text more : List Char}
    (htext : first.Reads text second) (hmore : second.Reads more third) :
    first.Reads (text ++ more) third := by
  refine ⟨?_, ?_⟩
  · rw [htext.1, hmore.1, List.append_assoc]
  · rw [hmore.2, htext.2, List.length_append, Nat.add_assoc]

/-- Skipping a text that is there reads it. -/
theorem skip {cursor : Cursor} {text rest : List Char} (hrest : cursor.rest = text ++ rest) :
    cursor.Reads text (cursor.skip text.length) := by
  refine ⟨?_, rfl⟩
  simp only [Cursor.skip, hrest, List.drop_left]

end Cursor.Reads

namespace Parser

variable {α β : Type}

/-! ### Results -/

theorem result_bind (first : Parser α) (next : α → Parser β) (cursor : Cursor) :
    ((first >>= next) cursor).result =
      (first cursor).result.bind fun found ↦ (next found.1 found.2).result := by
  change (Parser.bind first next cursor).result = _
  unfold Parser.bind
  split <;> rename_i heq <;> rw [heq] <;> rfl

/-- A chain of parsers gives a value exactly when its parts do one behind another. -/
@[simp] theorem result_bind_eq_some_iff {first : Parser α} {next : α → Parser β}
    {cursor : Cursor} {found : β × Cursor} :
    ((first >>= next) cursor).result = some found ↔
      ∃ value behind, (first cursor).result = some (value, behind) ∧
        (next value behind).result = some found := by
  simp only [result_bind, Option.bind_eq_some_iff, Prod.exists]

theorem result_orElse (first second : Parser α) (cursor : Cursor) :
    (orElse first second cursor).result = (first cursor).result.or (second cursor).result := by
  unfold orElse
  split
  · rename_i heq
    rw [heq, Option.none_or]
  · rename_i hfound
    cases hresult : (first cursor).result with
    | none => exact (hfound (first cursor).trail (by rw [← hresult])).elim
    | some found => rw [Option.some_or]

theorem result_optional (parser : Parser α) (cursor : Cursor) :
    (optional parser cursor).result =
      some (((parser cursor).result.map fun found ↦ (some found.1, found.2)).getD
        (none, cursor)) := by
  unfold optional
  split <;> rename_i heq <;> rw [heq] <;> rfl

/-- One round of a repetition: nothing more is read where the parser fails or stays in place. -/
theorem result_many (parser : Parser α) (cursor : Cursor) :
    (many parser cursor).result =
      match (parser cursor).result with
      | none => some ([], cursor)
      | some (value, behind) =>
        if behind.rest.length < cursor.rest.length then
          (many parser behind).result.map fun found ↦ (value :: found.1, found.2)
        else some ([], cursor) := by
  rw [many.eq_def]
  split
  · rename_i heq
    rw [heq]
  · rename_i heq
    rw [heq]
    dsimp only
    split_ifs <;> rfl

/-- The end of the source is found where nothing is left. -/
theorem result_atEnd_eq_some_iff {cursor behind : Cursor} {value : Unit} :
    (attempt .endOfInput atEnd cursor).result = some (value, behind) ↔
      cursor.rest = [] ∧ behind = cursor := by
  change (if cursor.rest = [] then some ((), cursor) else none) = some (value, behind) ↔ _
  split_ifs with hempty
  · simp [hempty, eq_comm]
  · simp [hempty]

/-! ### From results to texts -/

/-- The text that a parser of one character has read. -/
theorem reads_of_one {ok : Char → Bool} {cursor behind : Cursor} {c : Char}
    (h : (one ok cursor).result = some (c, behind)) : ok c = true ∧ cursor.Reads [c] behind := by
  unfold one at h
  split at h
  · rename_i head tail heq
    split_ifs at h with hok
    · obtain ⟨rfl, rfl⟩ := Prod.mk.inj (Option.some.inj h)
      have hrest : cursor.rest = [head] ++ tail := by simpa using heq
      exact ⟨hok, Cursor.Reads.skip hrest⟩
  · exact absurd h (by simp)

/-- The text that a parser of a given character has read. -/
theorem reads_of_char {c : Char} {cursor behind : Cursor} {value : Unit}
    (h : (char c cursor).result = some (value, behind)) : cursor.Reads [c] behind := by
  obtain ⟨d, middle, hone, hpure⟩ := result_bind_eq_some_iff.mp h
  obtain ⟨hd, hreads⟩ := reads_of_one hone
  obtain ⟨rfl, rfl⟩ := Prod.mk.inj (Option.some.inj hpure)
  rwa [eq_of_beq hd] at hreads

/-- The text that a run has read, and that it cannot go on behind it. -/
theorem reads_of_span {ok : Char → Bool} {cursor behind : Cursor} {text : List Char}
    (h : (span ok cursor).result = some (text, behind)) :
    (∀ c ∈ text, ok c = true) ∧ cursor.Reads text behind ∧ Stops ok behind.rest := by
  obtain ⟨rfl, rfl⟩ := Prod.mk.inj (Option.some.inj h)
  have hsplit : cursor.rest = cursor.rest.takeWhile ok ++ cursor.rest.dropWhile ok :=
    List.takeWhile_append_dropWhile.symm
  have hreads := Cursor.Reads.skip hsplit
  have hrest : (cursor.skip (cursor.rest.takeWhile ok).length).rest = cursor.rest.dropWhile ok :=
    List.append_cancel_left (hreads.1.symm.trans hsplit)
  refine ⟨fun c hc ↦ List.mem_takeWhile_imp hc, hreads, ?_⟩
  intro c hc
  have hhead := List.head?_dropWhile_not ok cursor.rest
  rw [← hrest, Option.mem_def.mp hc] at hhead
  exact hhead

/-- The text that a nonempty run has read, and that it cannot go on behind it. -/
theorem reads_of_span1 {ok : Char → Bool} {cursor behind : Cursor} {text : List Char}
    (h : (span1 ok cursor).result = some (text, behind)) :
    text ≠ [] ∧ (∀ c ∈ text, ok c = true) ∧ cursor.Reads text behind ∧ Stops ok behind.rest := by
  obtain ⟨head, middle, hone, h⟩ := result_bind_eq_some_iff.mp h
  obtain ⟨tail, last, hspan, hpure⟩ := result_bind_eq_some_iff.mp h
  obtain ⟨rfl, rfl⟩ := Prod.mk.inj (Option.some.inj hpure)
  obtain ⟨hhead, hreads⟩ := reads_of_one hone
  obtain ⟨htail, hmore, hstops⟩ := reads_of_span hspan
  exact ⟨by simp, by simpa using ⟨hhead, htail⟩, hreads.trans hmore, hstops⟩

/-- The text that a parser of a word has read. -/
theorem reads_of_keyword {word text : List Char} {cursor behind : Cursor}
    (h : (keyword word cursor).result = some (text, behind)) :
    text.map Char.toLower = word ∧ cursor.Reads text behind := by
  unfold keyword at h
  dsimp only at h
  split_ifs at h with hword
  obtain ⟨rfl, rfl⟩ := Prod.mk.inj (Option.some.inj h)
  have hlength : (cursor.rest.take word.length).length = word.length := by
    have hmap := congrArg List.length hword
    rwa [List.length_map] at hmap
  have hsplit : cursor.rest = cursor.rest.take word.length ++ cursor.rest.drop word.length :=
    (List.take_append_drop _ _).symm
  have hreads := Cursor.Reads.skip hsplit
  rw [hlength] at hreads
  exact ⟨hword, hreads⟩

/-- What a choice gives is given by one of its parsers. -/
theorem result_of_orElse {first second : Parser α} {cursor : Cursor} {found : α × Cursor}
    (h : (orElse first second cursor).result = some found) :
    (first cursor).result = some found ∨ (second cursor).result = some found := by
  rw [result_orElse, Option.or_eq_some_iff] at h
  exact h.imp_right And.right

/-- Assumes: the values of a parser have texts, and it reads them. What `optional` has read is the
text of its value, or nothing. -/
theorem reads_of_optional {parser : Parser α} (text : α → List Char) (property : α → Prop)
    (hparser : ∀ {cursor behind : Cursor} {value : α},
      (parser cursor).result = some (value, behind) →
        property value ∧ cursor.Reads (text value) behind)
    {cursor behind : Cursor} {value : Option α}
    (h : (optional parser cursor).result = some (value, behind)) :
    (∀ v ∈ value, property v) ∧ cursor.Reads ((value.map text).getD []) behind := by
  rw [result_optional] at h
  cases hresult : (parser cursor).result with
  | none =>
    rw [hresult] at h
    obtain ⟨rfl, rfl⟩ := Prod.mk.inj (Option.some.inj h)
    exact ⟨by simp, Cursor.Reads.refl cursor⟩
  | some found =>
    rw [hresult] at h
    obtain ⟨rfl, rfl⟩ := Prod.mk.inj (Option.some.inj h)
    obtain ⟨hproperty, hreads⟩ := hparser hresult
    exact ⟨by simpa using hproperty, hreads⟩

end Parser

/-! ### Repetition -/

/-- Every value of a list has a property in front of the texts of the later ones and a rest. -/
def InTurn {α : Type} (property : α → List Char → Prop) (text : α → List Char) :
    List α → List Char → Prop
  | [], _ => True
  | value :: later, rest =>
    property value (later.flatMap text ++ rest) ∧ InTurn property text later rest

namespace InTurn

variable {α : Type} {text : α → List Char} {values : List α} {rest : List Char}

/-- A property that does not look at what follows holds of every value. -/
theorem forall_mem {property : α → Prop}
    (h : InTurn (fun value _ ↦ property value) text values rest) :
    ∀ value ∈ values, property value := by
  induction values with
  | nil => simp
  | cons value later ih =>
    intro v hv
    rcases List.mem_cons.mp hv with rfl | hlater
    · exact h.1
    · exact ih h.2 v hlater

end InTurn

namespace Parser

variable {α β : Type}

/-- Assumes: the values of a parser have texts, and it reads them with a property in front of the
rest. What `many` has read are the texts of its values, each of which has the property in front of
what follows it. -/
theorem reads_of_many {parser : Parser α} (text : α → List Char)
    (property : α → List Char → Prop)
    (hparser : ∀ {cursor behind : Cursor} {value : α},
      (parser cursor).result = some (value, behind) →
        property value behind.rest ∧ cursor.Reads (text value) behind)
    {cursor behind : Cursor} {values : List α}
    (h : (many parser cursor).result = some (values, behind)) :
    InTurn property text values behind.rest ∧ cursor.Reads (values.flatMap text) behind := by
  induction hlength : cursor.rest.length using Nat.strong_induction_on
    generalizing cursor values with
  | _ length ih =>
    rw [result_many] at h
    cases hresult : (parser cursor).result with
    | none =>
      rw [hresult] at h
      obtain ⟨rfl, rfl⟩ := Prod.mk.inj (Option.some.inj h)
      exact ⟨trivial, Cursor.Reads.refl cursor⟩
    | some found =>
      obtain ⟨value, middle⟩ := found
      rw [hresult] at h
      dsimp only at h
      split_ifs at h with hlt
      · obtain ⟨⟨later, last⟩, hmany, heq⟩ := Option.map_eq_some_iff.mp h
        obtain ⟨rfl, rfl⟩ := Prod.mk.inj heq
        obtain ⟨hturn, hmore⟩ := ih middle.rest.length (hlength ▸ hlt) hmany rfl
        obtain ⟨hproperty, hreads⟩ := hparser hresult
        exact ⟨⟨hmore.1 ▸ hproperty, hturn⟩, hreads.trans hmore⟩
      · obtain ⟨rfl, rfl⟩ := Prod.mk.inj (Option.some.inj h)
        exact ⟨trivial, Cursor.Reads.refl cursor⟩

/-! ### From texts to results -/

/-- A parser reads a text in front of a rest, wherever it stands, and gives a value. -/
def Takes (parser : Parser α) (text rest : List Char) (value : α) : Prop :=
  ∀ offset, (parser ⟨offset, text ++ rest⟩).result = some (value, ⟨offset + text.length, rest⟩)

/-- A parser fails on a rest, wherever it stands. -/
def Refuses (parser : Parser α) (rest : List Char) : Prop :=
  ∀ offset, (parser ⟨offset, rest⟩).result = none

namespace Takes

variable {parser : Parser α} {text rest more : List Char} {value : α}

theorem pure (value : α) (rest : List Char) : Takes (pure value) [] rest value :=
  fun _ ↦ rfl

theorem bind {next : α → Parser β} {result : β} (hfirst : Takes parser text (more ++ rest) value)
    (hnext : Takes (next value) more rest result) :
    Takes (parser >>= next) (text ++ more) rest result := by
  intro offset
  refine result_bind_eq_some_iff.mpr ⟨value, ⟨offset + text.length, more ++ rest⟩, ?_, ?_⟩
  · rw [List.append_assoc]
    exact hfirst offset
  · rw [hnext, List.length_append, Nat.add_assoc]

theorem attempt (rule : Rule) (h : Takes parser text rest value) :
    Takes (attempt rule parser) text rest value := h

theorem orElse_left {second : Parser α} (h : Takes parser text rest value) :
    Takes (orElse parser second) text rest value := by
  intro offset
  rw [result_orElse, h, Option.some_or]

theorem orElse_right {first : Parser α} (hfirst : Refuses first (text ++ rest))
    (h : Takes parser text rest value) : Takes (orElse first parser) text rest value := by
  intro offset
  rw [result_orElse, hfirst, Option.none_or, h]

theorem optional_some (h : Takes parser text rest value) :
    Takes (optional parser) text rest (some value) := by
  intro offset
  rw [result_optional, h]
  rfl

theorem optional_none (h : Refuses parser rest) : Takes (optional parser) [] rest none := by
  intro offset
  rw [result_optional, List.nil_append, h]
  rfl

theorem one {ok : Char → Bool} {c : Char} (hc : ok c = true) : Takes (one ok) [c] rest c := by
  intro offset
  simp [Parser.one, hc, Cursor.skip]

theorem char (c : Char) (rest : List Char) : Takes (char c) [c] rest () := by
  have hone : Takes (Parser.one (· == c)) [c] ([] ++ rest) c := Takes.one (beq_self_eq_true c)
  exact Takes.bind hone (Takes.pure () rest)

theorem span {ok : Char → Bool} (htext : ∀ c ∈ text, ok c = true) (hrest : Stops ok rest) :
    Takes (span ok) text rest text := by
  intro offset
  simp [Parser.span, takeWhile_append_of_stops htext hrest, Cursor.skip]

theorem span1 {ok : Char → Bool} (hne : text ≠ []) (htext : ∀ c ∈ text, ok c = true)
    (hrest : Stops ok rest) : Takes (span1 ok) text rest text := by
  obtain ⟨head, tail, rfl⟩ := List.exists_cons_of_ne_nil hne
  have hhead : Takes (Parser.one ok) [head] (tail ++ rest) head := Takes.one (htext head (by simp))
  have htail : Takes (Parser.span ok) tail rest tail :=
    Takes.span (fun c hc ↦ htext c (by simp [hc])) hrest
  have htakes : Takes (Parser.span1 ok) ([head] ++ (tail ++ [])) rest (head :: tail) :=
    Takes.bind (by rwa [List.append_nil]) (Takes.bind htail (Takes.pure (head :: tail) rest))
  rwa [List.append_nil] at htakes

theorem keyword {word : List Char} (htext : text.map Char.toLower = word) :
    Takes (keyword word) text rest text := by
  intro offset
  have hlength : word.length = text.length := by rw [← htext, List.length_map]
  simp [Parser.keyword, hlength, htext, Cursor.skip]

/-- Assumes: each of a list of values is read from a text of its own, which is not empty, in front
of the texts of the later values and a rest. `many` reads them all and goes on with the rest. -/
theorem result_many_append {text : β → List Char} {give : β → α} {values : List β}
    (hvalues : InTurn (fun value more ↦ text value ≠ [] ∧
      Takes parser (text value) more (give value)) text values rest) (offset : Nat) :
    (Parser.many parser ⟨offset, values.flatMap text ++ rest⟩).result =
      (Parser.many parser ⟨offset + (values.flatMap text).length, rest⟩).result.map
        fun found ↦ (values.map give ++ found.1, found.2) := by
  induction values generalizing offset with
  | nil => simp
  | cons value later ih =>
    obtain ⟨⟨hne, hvalue⟩, hlater⟩ := hvalues
    have hshorter : (later.flatMap text ++ rest).length <
        (text value ++ (later.flatMap text ++ rest)).length := by
      have hpos : 0 < (text value).length := List.length_pos_iff.mpr hne
      simp only [List.length_append]
      omega
    rw [result_many, List.flatMap_cons, List.append_assoc, hvalue]
    dsimp only
    rw [if_pos hshorter, ih hlater, Option.map_map]
    simp [Nat.add_assoc, Function.comp_def]

/-- Assumes: each of a list of values is read from a text of its own, which is not empty, in front
of the texts of the later values and a rest on which the parser fails. `many` reads them all. -/
theorem many {text : β → List Char} {give : β → α} {values : List β}
    (hvalues : InTurn (fun value more ↦ text value ≠ [] ∧
      Takes parser (text value) more (give value)) text values rest)
    (hrest : Refuses parser rest) :
    Takes (many parser) (values.flatMap text) rest (values.map give) := by
  intro offset
  rw [result_many_append hvalues, result_many, hrest]
  simp

end Takes

namespace Refuses

variable {parser : Parser α} {text rest : List Char} {value : α}

theorem one {ok : Char → Bool} (h : Stops ok rest) : Refuses (one ok) rest := by
  intro offset
  cases rest with
  | nil => rfl
  | cons c tail => simp [Parser.one, (stops_cons ok c tail).mp h]

theorem bind_first {next : α → Parser β} (h : Refuses parser rest) :
    Refuses (parser >>= next) rest := by
  intro offset
  rw [result_bind, h, Option.bind_none]

theorem bind_next {next : α → Parser β} (hfirst : Takes parser text rest value)
    (hnext : Refuses (next value) rest) : Refuses (parser >>= next) (text ++ rest) := by
  intro offset
  rw [result_bind, hfirst, Option.bind_some, hnext]

theorem orElse {second : Parser α} (hfirst : Refuses parser rest) (hsecond : Refuses second rest) :
    Refuses (orElse parser second) rest := by
  intro offset
  rw [result_orElse, hfirst, hsecond, Option.none_or]

theorem char {c : Char} (h : Stops (· == c) rest) : Refuses (char c) rest :=
  Refuses.bind_first (Refuses.one h)

theorem span1 {ok : Char → Bool} (h : Stops ok rest) : Refuses (span1 ok) rest :=
  Refuses.bind_first (Refuses.one h)

theorem keyword {word : List Char} (h : (rest.take word.length).map Char.toLower ≠ word) :
    Refuses (keyword word) rest := by
  intro offset
  simp only [Parser.keyword, if_neg h]

end Refuses

end Parser

end DialogueScript.Syntax
