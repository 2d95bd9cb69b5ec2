import DialogueScript.Compile.Source
import Mathlib.Data.List.Forall2

/-!
# What steps give and report

Two views of a `Step`, each closed under the ways in which steps are put together.

The value of a chain of steps is found part by part, with no regard to the reports
(`value_bind_eq_some_iff`, `value_forEach_eq_some_iff`).

`Step.Reports` compares a step with a list of all that is wrong with what it compiles. The step
stops at the first complaint of the list: it has a value exactly if there is none, and otherwise
its last report is the defect that the first complaint is about. All other reports pass.
-/

set_option autoImplicit false
set_option relaxedAutoImplicit false

namespace DialogueScript

/-- A finding that lets a compilation go on: the entry of a construct or a warning. -/
def Finding.IsPassing (finding : Finding) : Prop :=
  finding.level = .info ∨ finding.level = .warning

/-- Something that is wrong with a source, and where. -/
structure Complaint where
  message : String
  position : Position
deriving DecidableEq, Repr

namespace Step

variable {α β : Type}

/-! ### Values -/

@[simp] theorem value_pure (a : α) : (pure a : Step α).value = some a := rfl

@[simp] theorem value_map (f : α → β) (step : Step α) : (f <$> step).value = step.value.map f := rfl

@[simp] theorem value_fail (defect : Defect) (position : Position) :
    (fail defect position : Step α).value = none := rfl

theorem value_bind (first : Step α) (next : α → Step β) :
    (first >>= next).value = first.value.bind fun a ↦ (next a).value := by
  change (Step.bind first next).value = _
  unfold Step.bind
  cases first.value <;> rfl

/-- Assumes: the first of two steps has a value. The second goes on with it. -/
theorem bind_of_value {first : Step α} {next : α → Step β} {a : α} (h : first.value = some a) :
    first >>= next = ⟨first.findings ++ (next a).findings, (next a).value⟩ := by
  obtain ⟨findings, value⟩ := first
  obtain rfl : value = some a := h
  rfl

/-- A chain of steps has a value exactly if its parts do one behind another. -/
@[simp] theorem value_bind_eq_some_iff {first : Step α} {next : α → Step β} {b : β} :
    (first >>= next).value = some b ↔
      ∃ a, first.value = some a ∧ (next a).value = some b := by
  rw [value_bind, Option.bind_eq_some_iff]

/-- A report in front of a step does not show in its value. -/
@[simp] theorem value_report_bind (finding : Finding) (next : Unit → Step β) :
    (report finding >>= next).value = (next ()).value := rfl

/-- A report under a condition in front of a step does not show in its value. -/
@[simp] theorem value_reportIf_bind (condition : Bool) (finding : Finding) (next : Unit → Step β) :
    (reportIf condition finding >>= next).value = (next ()).value := rfl

/-- The values of a list of steps are the values of its steps, each of which has one. -/
theorem value_forEach_eq_some_iff {step : α → Step β} {inputs : List α} {outputs : List β} :
    (forEach step inputs).value = some outputs ↔
      List.Forall₂ (fun input output ↦ (step input).value = some output) inputs outputs := by
  induction inputs generalizing outputs with
  | nil =>
    rw [forEach, value_pure, Option.some_inj, List.forall₂_nil_left_iff, eq_comm]
  | cons input rest ih =>
    rw [forEach, value_bind_eq_some_iff, List.forall₂_cons_left_iff]
    simp only [value_map, Option.map_eq_some_iff, ih]
    constructor
    · rintro ⟨output, houtput, outputs, houtputs, rfl⟩
      exact ⟨output, outputs, houtput, houtputs, rfl⟩
    · rintro ⟨output, outputs, houtput, houtputs, rfl⟩
      exact ⟨output, houtput, outputs, houtputs, rfl⟩

/-- A concluded step gives its value. -/
theorem result_conclude_eq_ok_iff {step : Step Script} {script : Script} :
    step.conclude.result = .ok script ↔ step.value = some script := by
  unfold conclude
  cases step.value <;> simp

/-! ### Reports -/

/-- A step stops at the first of a list of complaints, and reports it behind passing findings. -/
inductive Reports : Step α → List Complaint → Prop
  /-- Nothing is wrong. -/
  | done {findings : List Finding} {value : α}
      (hpassing : ∀ finding ∈ findings, finding.IsPassing) : Reports ⟨findings, some value⟩ []
  /-- Something is wrong. -/
  | stopped {before : List Finding} {defect : Defect} {position : Position} {later : List Complaint}
      (hpassing : ∀ finding ∈ before, finding.IsPassing) :
      Reports ⟨before ++ [.defect defect position], none⟩ (⟨defect.message, position⟩ :: later)

namespace Reports

theorem pure (a : α) : (Pure.pure a : Step α).Reports [] :=
  .done (List.forall_mem_nil _)

/-- Assumes: a finding passes. Reporting it is no reason for a complaint. -/
theorem report {finding : Finding} (hpassing : finding.IsPassing) : (report finding).Reports [] :=
  .done (by simpa using hpassing)

/-- Assumes: a finding passes. Reporting it under a condition is no reason for a complaint. -/
theorem reportIf {condition : Bool} {finding : Finding} (hpassing : finding.IsPassing) :
    (reportIf condition finding).Reports [] := by
  refine .done fun f hf ↦ ?_
  cases condition with
  | false => exact absurd hf (by simp)
  | true =>
    obtain rfl : f = finding := by simpa using hf
    exact hpassing

theorem fail (defect : Defect) (position : Position) (later : List Complaint) :
    (fail defect position : Step α).Reports (⟨defect.message, position⟩ :: later) := by
  have hstopped : Reports (⟨[] ++ [.defect defect position], none⟩ : Step α)
      (⟨defect.message, position⟩ :: later) :=
    .stopped (List.forall_mem_nil _)
  exact hstopped

theorem map {step : Step α} {complaints : List Complaint} (f : α → β)
    (h : step.Reports complaints) : (f <$> step).Reports complaints := by
  cases h with
  | done hpassing => exact .done hpassing
  | stopped hpassing => exact .stopped hpassing

/-- A step has a value exactly if there is nothing to complain about. -/
theorem isSome_value_iff {step : Step α} {complaints : List Complaint}
    (h : step.Reports complaints) : step.value.isSome ↔ complaints = [] := by
  cases h with
  | done hpassing => exact iff_of_true rfl rfl
  | stopped hpassing => exact iff_of_false nofun (List.cons_ne_nil _ _)

/-- The complaints about a chain of steps are those about its parts. What is wrong with the second
step matters only if the first has a value. -/
theorem bind {first : Step α} {next : α → Step β} {complaints more : List Complaint}
    (hfirst : first.Reports complaints)
    (hnext : ∀ a, first.value = some a → (next a).Reports more) :
    (first >>= next).Reports (complaints ++ more) := by
  cases hfirst with
  | stopped hpassing => exact .stopped hpassing
  | @done findings value hpassing =>
    change (⟨findings ++ (next value).findings, (next value).value⟩ : Step β).Reports more
    cases hsecond : next value with
    | mk later result =>
      have hreports := hnext value rfl
      rw [hsecond] at hreports
      cases hreports with
      | done hlater => exact .done (List.forall_mem_append.mpr ⟨hpassing, hlater⟩)
      | stopped hlater =>
        rw [← List.append_assoc]
        exact .stopped (List.forall_mem_append.mpr ⟨hpassing, hlater⟩)

/-- The complaints about a list of steps are those about its steps in order. -/
theorem forEach {step : α → Step β} {complaints : α → List Complaint} {inputs : List α}
    (h : ∀ input ∈ inputs, (step input).Reports (complaints input)) :
    (forEach step inputs).Reports (inputs.flatMap complaints) := by
  induction inputs with
  | nil => exact Reports.pure []
  | cons input rest ih =>
    rw [List.flatMap_cons]
    exact (h input (by simp)).bind fun output _ ↦
      Reports.map _ (ih fun i hi ↦ h i (by simp [hi]))

end Reports

end Step

end DialogueScript
