import DialogueScript.Compile.Finding

/-!
# Steps of a compilation

A `Step` is a piece of a compilation that is done: what it reported and, unless it found a defect,
its value. Steps are chained by `>>=`, which keeps the reports of both and goes no further than the
first defect.
-/

set_option autoImplicit false
set_option relaxedAutoImplicit false

namespace DialogueScript

/-- The reports of a piece of a compilation, and its value if it succeeds. -/
structure Step (α : Type) where
  findings : List Finding
  value : Option α

namespace Step

variable {α β : Type}

/-- A value without a report. -/
protected def pure (value : α) : Step α :=
  ⟨[], some value⟩

/-- One step and, if it succeeds, another. -/
protected def bind (first : Step α) (next : α → Step β) : Step β :=
  match first.value with
  | none => ⟨first.findings, none⟩
  | some value =>
    let second := next value
    ⟨first.findings ++ second.findings, second.value⟩

/-- A step with a function applied to its value. -/
protected def map (f : α → β) (step : Step α) : Step β :=
  ⟨step.findings, step.value.map f⟩

instance : Monad Step where
  map := Step.map
  pure := Step.pure
  bind := Step.bind

/-- A report that does not stop the compilation. -/
def report (finding : Finding) : Step Unit :=
  ⟨[finding], some ()⟩

/-- A report that is made under a condition. -/
def reportIf (condition : Bool) (finding : Finding) : Step Unit :=
  ⟨if condition then [finding] else [], some ()⟩

/-- A defect, which stops it. -/
def fail (defect : Defect) (position : Position) : Step α :=
  ⟨[.defect defect position], none⟩

/-- The values of a list of steps that are made one behind another. -/
def forEach (step : α → Step β) : List α → Step (List β)
  | [] => pure []
  | a :: rest => do
    let b ← step a
    (b :: ·) <$> forEach step rest

end Step

end DialogueScript
