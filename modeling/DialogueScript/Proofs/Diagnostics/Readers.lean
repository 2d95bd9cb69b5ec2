import DialogueScript.Proofs.Compile.Forms
import DialogueScript.Proofs.Diagnostics.Emission

/-!
# Readers that fail

A reader delivers its bytes to the end, or it fails for a reason behind some bytes (`FailsAfter`),
and never both. If it delivers them, the two forms of compiling it differ in nothing: they have one
script, or none, and emit the same events, which end in failure without a script.

If the reader fails, there is no script either way. The form without a reason reports the failure
on the channel like any other one. The form that answers why there is no script answers this at
once, and the channel is silent (`reader_forms`). So the events of the two forms are the same
exactly if the reader delivers its bytes.
-/

set_option autoImplicit false
set_option relaxedAutoImplicit false

namespace DialogueScript

/-- A reader delivers bytes and then fails for a reason, before it comes to its end. -/
inductive FailsAfter : List Read → List UInt8 → String → Prop
  /-- The reader fails, whatever it would do behind it. -/
  | failed (reason : String) (later : List Read) : FailsAfter (.failed reason :: later) [] reason
  /-- A chunk of any size comes before the failure. -/
  | chunk {bytes more : List UInt8} {reason : String} {later : List Read} (hne : bytes ≠ [])
      (hlater : FailsAfter later more reason) :
      FailsAfter (.bytes bytes :: later) (bytes ++ more) reason
  /-- An interruption is no failure. -/
  | interrupted {bytes : List UInt8} {reason : String} {later : List Read}
      (hlater : FailsAfter later bytes reason) : FailsAfter (.interrupted :: later) bytes reason

theorem readToEnd_of_failsAfter {reads : List Read} {bytes : List UInt8} {reason : String}
    (h : FailsAfter reads bytes reason) : readToEnd reads = .error reason := by
  induction h with
  | failed reason later => rfl
  | interrupted hlater ih => exact ih
  | @chunk bytes more reason later hne hlater ih =>
    obtain ⟨byte, others, rfl⟩ := List.exists_cons_of_ne_nil hne
    rw [readToEnd_cons, ih]
    rfl

/-- A reader comes to its end or fails. The induction is on what it does. -/
theorem delivers_or_failsAfter (reads : List Read) :
    (∃ bytes, Delivers reads bytes) ∨ ∃ bytes reason, FailsAfter reads bytes reason := by
  induction reads with
  | nil => exact Or.inl ⟨[], .done⟩
  | cons read later ih =>
    cases read with
    | failed reason => exact Or.inr ⟨[], reason, .failed reason later⟩
    | interrupted =>
      rcases ih with ⟨bytes, hbytes⟩ | ⟨bytes, reason, hfails⟩
      · exact Or.inl ⟨bytes, .interrupted hbytes⟩
      · exact Or.inr ⟨bytes, reason, .interrupted hfails⟩
    | bytes chunk =>
      by_cases hne : chunk = []
      · subst hne
        exact Or.inl ⟨[], .ended later⟩
      · rcases ih with ⟨bytes, hbytes⟩ | ⟨bytes, reason, hfails⟩
        · exact Or.inl ⟨chunk ++ bytes, .chunk hne hbytes⟩
        · exact Or.inr ⟨chunk ++ bytes, reason, .chunk hne hfails⟩

/-- Events end with one error and the failure of the compilation, and no others of them tell of a
failure. -/
def EndWithError (channel : String) (events : List Event) : Prop :=
  ∃ before error position,
    events = before ++ [error, ⟨channel, .fatal, "Failed to compile message script", position⟩] ∧
      (∀ event ∈ before, ¬event.IsFailure) ∧ error.level = .error

theorem EndInFailure.endWithError {channel : String} {parsed : Prop} {events : List Event}
    (h : EndInFailure channel parsed events) : EndWithError channel events := by
  obtain ⟨before, error, position, hevents, hbefore, hlevel, -⟩ := h
  exact ⟨before, error, position, hevents, hbefore, hlevel⟩

/-- The events of a reader that fails. -/
def unreadableEvents (channel reason : String) : List Event :=
  [⟨channel, .error, "Unable to read source: " ++ reason, none⟩,
    ⟨channel, .fatal, "Failed to compile message script", none⟩]

theorem endWithError_unreadable (channel reason : String) :
    EndWithError channel (unreadableEvents channel reason) :=
  ⟨[], _, none, rfl, List.forall_mem_nil _, rfl⟩

/-- What the two forms of compiling a reader have in common and where they differ: `script` and
`tried` are the answer of the form without a reason and its events, `result` and `compiled` those of
the form with one. -/
structure ReaderForms (channel : String) (reads : List Read) (script : Option Script)
    (tried : List Event) (result : Except CompileError Script) (compiled : List Event) : Prop where
  /-- The forms succeed together, and with the same script. -/
  result_eq_ok_iff : ∀ s, result = .ok s ↔ script = some s
  /-- Without a script, the events of the first form end with one error. -/
  failure : script = none → EndWithError channel tried
  /-- If the reader delivers its bytes, the forms emit the same events. Without a script, the second
  form refers to them. -/
  delivered : ∀ bytes, Delivers reads bytes →
    compiled = tried ∧ (script = none → result = .error .failed)
  /-- If the reader fails, there is no script. Of the two forms, one reports the reason and the
  other answers it, without an event. -/
  failed : ∀ bytes reason, FailsAfter reads bytes reason →
    script = none ∧ tried = unreadableEvents channel reason ∧
      result = .error (.unreadable reason) ∧ compiled = []
  /-- The forms emit the same events exactly if the reader delivers its bytes. -/
  events_eq_iff : compiled = tried ↔ ∃ bytes, Delivers reads bytes

/-- Assumes: a reader delivers bytes. The two forms of compiling it emit the same events. -/
theorem readerForms_of_delivers {reads : List Read} {bytes : List UInt8}
    (hreads : Delivers reads bytes) (version : FormatVersion) (channel : String) :
    ReaderForms channel reads (tryCompile version (.reader reads)).value
      ((tryCompile version (.reader reads)).findings.map (·.toEvent channel))
      (compile version (.reader reads)).result
      ((compile version (.reader reads)).findings.map (·.toEvent channel)) := by
  have hread := readToEnd_of_delivers hreads
  have htry : tryCompile version (.reader reads) = compileBytes version bytes := by
    simp only [tryCompile, hread]
  have hcompile : compile version (.reader reads) = (compileBytes version bytes).conclude := by
    simp only [compile, hread]
  have hdisciplined := disciplined_of_ends (ends_compileBytes version bytes) channel
  rw [htry, hcompile]
  refine ⟨fun s ↦ Step.result_conclude_eq_ok_iff, fun hnone ↦ ?_, fun _ _ ↦ ⟨rfl, fun hnone ↦ ?_⟩,
    fun _ reason hfails ↦ ?_, iff_of_true rfl ⟨bytes, hreads⟩⟩
  · exact (hdisciplined.failure hnone).endWithError
  · rw [Step.conclude, hnone]
  · rw [readToEnd_of_failsAfter hfails] at hread
    exact absurd hread (by simp)

/-- Assumes: a reader fails. One form reports why, the other one answers why. -/
theorem readerForms_of_failsAfter {reads : List Read} {bytes : List UInt8} {reason : String}
    (hreads : FailsAfter reads bytes reason) (version : FormatVersion) (channel : String) :
    ReaderForms channel reads (tryCompile version (.reader reads)).value
      ((tryCompile version (.reader reads)).findings.map (·.toEvent channel))
      (compile version (.reader reads)).result
      ((compile version (.reader reads)).findings.map (·.toEvent channel)) := by
  have hread := readToEnd_of_failsAfter hreads
  have htry : tryCompile version (.reader reads) = giveUp [.unreadable reason] none := by
    simp only [tryCompile, hread]
  have hcompile : compile version (.reader reads) = ⟨[], .error (.unreadable reason)⟩ := by
    simp only [compile, hread]
  have hnot : ¬∃ bytes, Delivers reads bytes := by
    rintro ⟨bytes, hbytes⟩
    rw [readToEnd_of_delivers hbytes] at hread
    exact absurd hread (by simp)
  rw [htry, hcompile]
  refine ⟨fun s ↦ by simp [giveUp], fun _ ↦ endWithError_unreadable channel reason,
    fun bytes hbytes ↦ absurd ⟨bytes, hbytes⟩ hnot, fun _ other hfails ↦ ?_,
    iff_of_false (List.cons_ne_nil _ _).symm hnot⟩
  rw [readToEnd_of_failsAfter hfails] at hread
  obtain rfl := Except.error.inj hread
  exact ⟨rfl, rfl, rfl, rfl⟩

/-- The two forms of compiling any reader, as a recorder sees them. -/
theorem reader_forms (options : Options) (recorder : String) (reads : List Read) :
    ∃ script result tried compiled,
      (Session.recording options recorder).act (.tryCompile (.reader reads)) =
          (.tried [] script, tried) ∧
        (Session.recording options recorder).act (.compile (.reader reads)) =
          (.compiled [] result, compiled) ∧
        ReaderForms options.channel reads script (tried.recorded recorder) result
          (compiled.recorded recorder) := by
  refine ⟨_, _, _, _, Session.act_tryCompile_recording options recorder (.reader reads),
    Session.act_compile_recording options recorder (.reader reads), ?_⟩
  rw [Session.recorded_emitAll_recording, Session.recorded_emitAll_recording]
  rcases delivers_or_failsAfter reads with ⟨bytes, hreads⟩ | ⟨bytes, reason, hreads⟩
  · exact readerForms_of_delivers hreads options.formatVersion options.channel
  · exact readerForms_of_failsAfter hreads options.formatVersion options.channel

/-- A reader that fails behind a script that would compile: the forms do not emit the same
events. -/
theorem reader_forms_differ :
    ¬∀ (options : Options) (recorder : String) (reads : List Read),
      ((Session.recording options recorder).act (.compile (.reader reads))).2.recorded recorder =
        ((Session.recording options recorder).act (.tryCompile (.reader reads))).2.recorded
          recorder := by
  intro h
  have hevents := h ⟨.v1, "script"⟩ "log"
    [.bytes (Utf8.encode "[sel a]x".toList), .failed "disk gone"]
  have hreads : FailsAfter [.bytes (Utf8.encode "[sel a]x".toList), .failed "disk gone"]
      (Utf8.encode "[sel a]x".toList ++ []) "disk gone" :=
    .chunk (by decide) (.failed "disk gone" [])
  obtain ⟨-, htried, -, hcompiled⟩ :=
    (readerForms_of_failsAfter hreads .v1 "script").failed _ _ hreads
  rw [Session.act_compile_recording, Session.act_tryCompile_recording,
    Session.recorded_emitAll_recording, Session.recorded_emitAll_recording, hcompiled,
    htried] at hevents
  exact List.cons_ne_nil _ _ hevents.symm

end DialogueScript
