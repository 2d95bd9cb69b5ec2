import DialogueScript.Proofs.Compile.Outcome
import DialogueScript.Proofs.Diagnostics.Delivery

/-!
# The discipline of emission

A compiler says why it fails once, at the point of failure, and then that it fails. `Disciplined`
states this about the events of a compilation and its answer, and `compile_emission` proves it of
everything that a recorder holds after the compilation of any text or bytes. The form that answers
why there is no script emits the same events.
-/

set_option autoImplicit false
set_option relaxedAutoImplicit false

namespace DialogueScript

/-- An event tells of a failure. -/
def Event.IsFailure (event : Event) : Prop :=
  event.level = .error ∨ event.level = .fatal

/-- Events end with an error that has a position and with the failure of the compilation, and no
others of them tell of a failure. The failure has the position of the source if it is read. -/
def EndInFailure (channel : String) (parsed : Prop) (events : List Event) : Prop :=
  ∃ before error position,
    events = before ++ [error, ⟨channel, .fatal, "Failed to compile message script", position⟩] ∧
      (∀ event ∈ before, ¬event.IsFailure) ∧ error.level = .error ∧ error.position.isSome ∧
      (parsed → position = some ⟨1, 1⟩) ∧ (¬parsed → position = none)

/-- The events of a compilation of a source that is read or not, with a script or without one. -/
structure Disciplined (channel : String) (parsed : Prop) (script : Option Script)
    (events : List Event) : Prop where
  /-- There is a script exactly if no event tells of a failure. -/
  isSome_iff : script.isSome ↔ ∀ event ∈ events, ¬event.IsFailure
  /-- Without a script the events end in failure. -/
  failure : script = none → EndInFailure channel parsed events
  /-- A source that is not read gives no script, and only the two events of the failure. -/
  unread : ¬parsed → script = none ∧ events.length = 2
  /-- No event is for debugging. -/
  no_debug : ∀ event ∈ events, event.level ≠ .debug
  /-- Every event is on the channel of the compiler. -/
  on_channel : ∀ event ∈ events, event.channel = channel

section Findings

variable {channel : String} {findings : List Finding}

theorem level_ne_debug_of_mem :
    ∀ event ∈ findings.map (·.toEvent channel), event.level ≠ .debug := by
  intro event hevent
  obtain ⟨finding, _, rfl⟩ := List.mem_map.mp hevent
  cases finding <;> exact Level.noConfusion

theorem channel_eq_of_mem :
    ∀ event ∈ findings.map (·.toEvent channel), event.channel = channel := by
  intro event hevent
  obtain ⟨finding, _, rfl⟩ := List.mem_map.mp hevent
  rfl

/-- Passing findings tell of no failure. -/
theorem not_isFailure_of_passing (hpassing : ∀ finding ∈ findings, finding.IsPassing) :
    ∀ event ∈ findings.map (·.toEvent channel), ¬event.IsFailure := by
  intro event hevent
  obtain ⟨finding, hfinding, rfl⟩ := List.mem_map.mp hevent
  rcases hpassing finding hfinding with h | h <;> simp [Event.IsFailure, Finding.toEvent, h]

end Findings

/-- The events of a compilation that ends are disciplined. -/
theorem disciplined_of_ends {parsed : Prop} {step : Step Script} (hends : Ends parsed step)
    (channel : String) :
    Disciplined channel parsed step.value (step.findings.map (·.toEvent channel)) := by
  cases hends with
  | script hparsed hpassing =>
    exact ⟨iff_of_true rfl (not_isFailure_of_passing hpassing), fun hnone ↦ absurd hnone (by simp),
      fun hnot ↦ absurd hparsed hnot, level_ne_debug_of_mem, channel_eq_of_mem⟩
  | @defect before defect position hparsed hpassing =>
    have hfailure : EndInFailure channel parsed
        ((before ++ [Finding.defect defect position, Finding.gaveUp (some Position.start)]).map
          (·.toEvent channel)) := by
      rw [List.map_append]
      exact ⟨before.map (·.toEvent channel), Finding.toEvent channel (.defect defect position),
        some Position.start, rfl, not_isFailure_of_passing hpassing, rfl, rfl, fun _ ↦ rfl,
        fun hnot ↦ absurd hparsed hnot⟩
    refine ⟨iff_of_false (by simp) fun hnone ↦ ?_, fun _ ↦ hfailure,
      fun hnot ↦ absurd hparsed hnot, level_ne_debug_of_mem, channel_eq_of_mem⟩
    exact hnone (Finding.toEvent channel (.defect defect position))
      (List.mem_map_of_mem (by simp)) (Or.inl rfl)
  | @unread cause hparsed hlevel hposition =>
    refine ⟨iff_of_false (by simp) fun hnone ↦ ?_, fun _ ↦ ?_, fun _ ↦ ⟨rfl, rfl⟩,
      level_ne_debug_of_mem, channel_eq_of_mem⟩
    · exact hnone (cause.toEvent channel) List.mem_cons_self (Or.inl hlevel)
    · exact ⟨[], _, none, rfl, List.forall_mem_nil _, hlevel, hposition,
        fun hparses ↦ absurd hparses hparsed, fun _ ↦ rfl⟩

/-! ### Recording a compilation -/

namespace Session

/-- A compiler with a recorder attached. -/
def recording (options : Options) (recorder : String) : Session :=
  ((ofOptions options).act (.subscribe (.recorder recorder))).2

/-- What the recorder holds after events have been emitted is exactly these events. -/
theorem recorded_emitAll_recording (options : Options) (recorder : String) (events : List Event) :
    ((recording options recorder).emitAll events).2.recorded recorder = events := by
  have hbuffer : ((recording options recorder).emitAll events).2.buffer? recorder = some 0 := by
    rw [emitAll_eq]
    exact List.lookup_cons_self
  have hcount : (recording options recorder).channel.listeners.count (.recorder 0) = 1 := rfl
  rw [recorded, hbuffer, Option.map_some, Option.getD_some, buffers_emitAll, hcount]
  exact List.flatMap_singleton' events

theorem deliveries_recording (options : Options) (recorder : String) (events : List Event) :
    ((recording options recorder).emitAll events).1 = [] := by
  rw [deliveries_emitAll]
  exact List.flatMap_eq_nil_iff.mpr fun _ _ ↦ rfl

/-- The answer of a compiler with a recorder is that of the compilation, whose findings it emits. -/
theorem act_tryCompile_recording (options : Options) (recorder : String) (source : Source) :
    (recording options recorder).act (.tryCompile source) =
      (.tried [] (tryCompile options.formatVersion source).value,
        ((recording options recorder).emitAll
          ((tryCompile options.formatVersion source).findings.map
            (·.toEvent options.channel))).2) := by
  rw [← deliveries_recording options recorder
    ((tryCompile options.formatVersion source).findings.map (·.toEvent options.channel))]
  rfl

/-- The answer of a compiler with a recorder is that of the compilation, whose findings it emits. -/
theorem act_compile_recording (options : Options) (recorder : String) (source : Source) :
    (recording options recorder).act (.compile source) =
      (.compiled [] (compile options.formatVersion source).result,
        ((recording options recorder).emitAll
          ((compile options.formatVersion source).findings.map
            (·.toEvent options.channel))).2) := by
  rw [← deliveries_recording options recorder
    ((compile options.formatVersion source).findings.map (·.toEvent options.channel))]
  rfl

end Session

/-- A compiler with a recorder answers both forms of compiling a source, which is read or not. The
recorder holds the same disciplined events after either form, and they agree on the script. -/
def KeepsDiscipline (options : Options) (recorder : String) (source : Source) (parsed : Prop) :
    Prop :=
  ∃ script result tried compiled,
    (Session.recording options recorder).act (.tryCompile source) = (.tried [] script, tried) ∧
      (Session.recording options recorder).act (.compile source) =
        (.compiled [] result, compiled) ∧
      Disciplined options.channel parsed script (tried.recorded recorder) ∧
      compiled.recorded recorder = tried.recorded recorder ∧
      ∀ s, result = .ok s ↔ script = some s

/-- Assumes: a compilation of a source ends, and both forms of compiling the source are this
compilation. They keep the discipline. -/
theorem keepsDiscipline_of_ends {options : Options} {source : Source} {parsed : Prop}
    {step : Step Script} (hends : Ends parsed step)
    (htry : tryCompile options.formatVersion source = step)
    (hcompile : compile options.formatVersion source = step.conclude) (recorder : String) :
    KeepsDiscipline options recorder source parsed := by
  refine ⟨_, _, _, _, Session.act_tryCompile_recording options recorder source,
    Session.act_compile_recording options recorder source, ?_, ?_, fun s ↦ ?_⟩
  · rw [Session.recorded_emitAll_recording, htry]
    exact disciplined_of_ends hends options.channel
  · rw [Session.recorded_emitAll_recording, Session.recorded_emitAll_recording, htry, hcompile]
    rfl
  · rw [htry, hcompile]
    exact Step.result_conclude_eq_ok_iff

/-- The discipline of emission, for any text and any bytes. -/
theorem compile_emission (options : Options) (recorder : String) :
    (∀ text, KeepsDiscipline options recorder (.text text) (TextParses text)) ∧
      ∀ bytes, KeepsDiscipline options recorder (.bytes bytes) (BytesParse bytes) := by
  constructor
  · intro text
    exact keepsDiscipline_of_ends (ends_compileText options.formatVersion text) rfl rfl recorder
  · intro bytes
    exact keepsDiscipline_of_ends (ends_compileBytes options.formatVersion bytes) rfl rfl recorder

end DialogueScript
