import DialogueScript.Proofs.Syntax.Completeness

/-!
# Sources one behind another

A source that begins with a bracket can stand behind any other source. Its first bracket ends the
last text of the source in front of it, so that the parser reads the windows of the first source as
if nothing stood behind them, and then those of the second as if nothing stood before them. The tree
of both is the two trees joined (`parse_append_iff`).
-/

set_option autoImplicit false
set_option relaxedAutoImplicit false

namespace DialogueScript.Syntax

open DialogueScript.Syntax.Parser

/-- The windows of two sources behind the blanks of the first. -/
def Document.join (first second : Document) : Document :=
  ⟨first.blanks, first.windows ++ second.windows⟩

/-- A tree that is read has its spacing settled. -/
theorem settle_of_parse {source : List Char} {document : Document}
    (h : parse source = .ok document) : document.settle = document := by
  obtain ⟨hspelled, htext⟩ := spelled_of_parse h
  rw [← htext, parse_text hspelled] at h
  exact Except.ok.inj h

/-- A source that begins with a bracket has no blanks. -/
theorem blanks_eq_nil_of_head {document : Document} (hspaced : document.Spaced)
    (hopen : document.text.head? = some '[') : document.blanks = [] := by
  obtain ⟨blanks, windows⟩ := document
  cases blanks with
  | nil => rfl
  | cons c rest =>
    obtain rfl : c = '[' := Option.some.inj hopen
    have hblank : isBlank '[' = true := Spelling.mem_blanks.mp hspaced.blanks '[' List.mem_cons_self
    exact absurd hblank (by decide)

/-- Assumes: a tree of windows only. Joined to another tree it is spelled behind the other. -/
theorem spelled_join {first second : Document} (hfirst : first.Spelled) (hsecond : second.Spelled)
    (hblanks : second.blanks = []) :
    (first.join second).Spelled ∧ (first.join second).text = first.text ++ second.text := by
  constructor
  · obtain ⟨hfirstBlanks, hfirstWindows⟩ := spelled_document_iff.mp hfirst
    exact spelled_document_iff.mpr ⟨hfirstBlanks,
      List.forall_mem_append.mpr ⟨hfirstWindows, (spelled_document_iff.mp hsecond).2⟩⟩
  · rw [Document.text, Document.text, Document.text, Document.join, List.flatMap_append, hblanks,
      List.nil_append, List.append_assoc]

/-- A source that ends the texts in front of it is read itself if it is read behind another. The
parser comes to it after the windows of the other source, with nothing but windows to go on with. -/
theorem exists_parse_of_parse_append {first : Document} (hfirst : first.Spelled)
    {source : List Char} (hopen : source.head? = some '[') {document : Document}
    (h : parse (first.text ++ source) = .ok document) : ∃ second, parse source = .ok second := by
  have hends : EndsText source := by
    intro c hc
    exact Or.inl (Option.some.inj (hc.symm.trans hopen))
  have hresult : ∃ last, (Grammar.document ⟨0, first.text ++ source⟩).result =
      some (document, last) := by
    unfold parse at h
    dsimp only at h
    split at h
    · rename_i found last heq
      obtain rfl := Except.ok.inj h
      exact ⟨last, heq⟩
    · exact absurd h (by simp)
  obtain ⟨last, hresult⟩ := hresult
  obtain ⟨blanks, c₁, hblanks, hresult⟩ := result_bind_eq_some_iff.mp hresult
  obtain ⟨windows, c₂, hwindows, hresult⟩ := result_bind_eq_some_iff.mp hresult
  obtain ⟨_, c₃, hend, _⟩ := result_bind_eq_some_iff.mp hresult
  -- the blanks of the first source are read, and the cursor stands in front of its windows
  obtain ⟨hblank, hspelled⟩ := spelled_document_iff.mp hfirst
  have hspan := Takes.span (Spelling.mem_blanks.mp hblank)
    ((endsText_windows first.windows hends).stops rfl rfl : Stops isBlank _) 0
  rw [Document.text, List.append_assoc, hspan] at hblanks
  obtain ⟨rfl, rfl⟩ := Prod.mk.inj (Option.some.inj hblanks)
  rw [Takes.result_many_append (inTurn_windows hspelled hends)] at hwindows
  obtain ⟨⟨later, behind⟩, hlater, heq⟩ := Option.map_eq_some_iff.mp hwindows
  obtain ⟨_, rfl⟩ := Prod.mk.inj heq
  obtain ⟨hturn, hreads⟩ := reads_of_many Window.text (fun window _ ↦ window.Spelled)
    reads_of_window hlater
  have hempty : behind.rest = [] := (result_atEnd_eq_some_iff.mp hend).1
  have hlaterSpelled : Document.Spelled ⟨[], later⟩ :=
    spelled_document_iff.mpr ⟨Language.nil_mem_kstar _, InTurn.forall_mem hturn⟩
  have htext : Document.text ⟨[], later⟩ = source := by
    have hsource : source = later.flatMap Window.text ++ behind.rest := hreads.1
    rw [hempty, List.append_nil] at hsource
    exact hsource.symm
  exact ⟨_, htext ▸ parse_text hlaterSpelled⟩

/-- Assumes: a source that is read, and one that begins with a bracket. Both are read one behind the
other exactly if the second is read, and their tree is the two trees joined. -/
theorem parse_append_iff {source later : List Char} {first : Document}
    (hfirst : parse source = .ok first) (hopen : later.head? = some '[') {document : Document} :
    parse (source ++ later) = .ok document ↔
      ∃ second, parse later = .ok second ∧ document = first.join second := by
  obtain ⟨hspelled, rfl⟩ := spelled_of_parse hfirst
  have hjoin : ∀ second, parse later = .ok second →
      parse (first.text ++ later) = .ok (first.join second) := by
    intro second hsecond
    obtain ⟨hsecondSpelled, rfl⟩ := spelled_of_parse hsecond
    have hblanks := blanks_eq_nil_of_head hsecondSpelled.1 hopen
    obtain ⟨hjoined, htext⟩ := spelled_join hspelled hsecondSpelled hblanks
    have hsettle : (first.join second).settle = first.join second := by
      have hwindows := congrArg Document.windows (settle_of_parse hfirst)
      have hlater := congrArg Document.windows (settle_of_parse hsecond)
      rw [Document.settle] at hwindows hlater
      dsimp only at hwindows hlater
      rw [Document.settle, Document.join, List.map_append, hwindows, hlater]
    rw [← htext, parse_text hjoined, hsettle]
  constructor
  · intro h
    obtain ⟨second, hsecond⟩ := exists_parse_of_parse_append hspelled hopen h
    rw [hjoin second hsecond] at h
    exact ⟨second, hsecond, (Except.ok.inj h).symm⟩
  · rintro ⟨second, hsecond, rfl⟩
    exact hjoin second hsecond

end DialogueScript.Syntax
