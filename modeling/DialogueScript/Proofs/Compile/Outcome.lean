import DialogueScript.Proofs.Compile.Defects

/-!
# How a compilation ends

A compilation of a source ends in one of three ways (`Ends`): with a script, behind reports that all
pass; with the defect that stopped it, after which it gives up at the beginning of the source; or,
where the source is not read at all, with the cause alone, after which it gives up at no position.
`ends_compileText` and `ends_compileBytes` say so of every text and of all bytes.
-/

set_option autoImplicit false
set_option relaxedAutoImplicit false

namespace DialogueScript

open Syntax

/-- A text is read as a tree. -/
def TextParses (text : List Char) : Prop :=
  ∃ document, parse (Utf8.dropMark text) = .ok document

/-- Bytes are a text, which is read as a tree. -/
def BytesParse (bytes : List UInt8) : Prop :=
  ∃ text, Utf8.decode (Utf8.dropMarkBytes bytes) = ⟨text, none⟩ ∧ TextParses text

/-- The end of a compilation of a source that is read or not. -/
inductive Ends (parsed : Prop) : Step Script → Prop
  /-- There is a script. -/
  | script {findings : List Finding} {script : Script} (hparsed : parsed)
      (hpassing : ∀ finding ∈ findings, finding.IsPassing) : Ends parsed ⟨findings, some script⟩
  /-- The source has a defect. -/
  | defect {before : List Finding} {defect : Defect} {position : Position} (hparsed : parsed)
      (hpassing : ∀ finding ∈ before, finding.IsPassing) :
      Ends parsed ⟨before ++ [.defect defect position, .gaveUp (some Position.start)], none⟩
  /-- The source is not read. -/
  | unread {cause : Finding} (hparsed : ¬parsed) (hlevel : cause.level = .error)
      (hposition : cause.position.isSome) : Ends parsed ⟨[cause, .gaveUp none], none⟩

/-- Assumes: a compilation ends with a script. All that it reports passes. -/
theorem isPassing_of_ends {parsed : Prop} {step : Step Script} {script : Script}
    (hends : Ends parsed step) (hvalue : step.value = some script) :
    ∀ finding ∈ step.findings, finding.IsPassing := by
  cases hends with
  | script _ hpassing => exact hpassing
  | defect => exact absurd hvalue (by simp)
  | unread => exact absurd hvalue (by simp)

theorem ends_compileText (version : FormatVersion) (text : List Char) :
    Ends (TextParses text) (compileText version text) := by
  unfold compileText
  cases hparse : parse (Utf8.dropMark text) with
  | error error =>
    have hnot : ¬TextParses text := by
      rintro ⟨document, hdocument⟩
      rw [hparse] at hdocument
      exact absurd hdocument (by simp)
    exact .unread hnot rfl rfl
  | ok document =>
    have hreports := reports_script document version
    dsimp only
    generalize document.script version = step at hreports ⊢
    generalize document.node.complaints = complaints at hreports
    cases hreports with
    | done hpassing => exact .script ⟨document, hparse⟩ hpassing
    | stopped hpassing =>
      simp only [giveUp, List.append_assoc]
      exact .defect ⟨document, hparse⟩ hpassing

theorem ends_compileBytes (version : FormatVersion) (bytes : List UInt8) :
    Ends (BytesParse bytes) (compileBytes version bytes) := by
  unfold compileBytes BytesParse
  cases hdecode : Utf8.decode (Utf8.dropMarkBytes bytes) with
  | mk text fault =>
    cases fault with
    | some fault => exact .unread (by simp) rfl rfl
    | none =>
      have hparses : (∃ t, Utf8.Decoded.mk text none = ⟨t, none⟩ ∧ TextParses t) =
          TextParses text := by
        simp
      rw [hparses]
      exact ends_compileText version text

end DialogueScript
