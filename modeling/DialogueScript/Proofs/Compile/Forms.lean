import DialogueScript.Diagnostics.Session
import DialogueScript.Proofs.Text.Utf8
import Mathlib

/-!
# The forms of a source

A script may be handed over as text, as the UTF-8 bytes of the text, or by a reader that delivers
these bytes. `Delivers` says what a reader delivers: the chunks up to its end, however the bytes are
cut into chunks and however often it is interrupted on the way (`readToEnd_eq_ok_iff`).

`Interchangeable` says of two sources that no user of a compiler can tell them apart: whatever the
options and the listeners are, the answers and all that the listeners have seen are the same. A
reader is always interchangeable with its bytes. Bytes are not always interchangeable with their
text. Each form drops one mark of byte order and hands the rest to the next form, so that bytes and
readers lose two marks where the text loses one (`not_interchangeable_two_marks`). Bytes are the
text without its first mark, and the forms agree on every text that does not begin with two marks
(`forms_interchangeable`).
-/

set_option autoImplicit false
set_option relaxedAutoImplicit false

namespace DialogueScript

/-! ### Readers -/

/-- A reader delivers bytes when it is asked until its end, without a failure. -/
inductive Delivers : List Read → List UInt8 → Prop
  /-- The reader has nothing more to do. -/
  | done : Delivers [] []
  /-- An empty chunk is the end, whatever the reader would do behind it. -/
  | ended (later : List Read) : Delivers (.bytes [] :: later) []
  /-- A chunk of any size comes before all later ones. -/
  | chunk {bytes more : List UInt8} {later : List Read} (hne : bytes ≠ [])
      (hlater : Delivers later more) : Delivers (.bytes bytes :: later) (bytes ++ more)
  /-- An interruption delivers nothing and ends nothing. -/
  | interrupted {bytes : List UInt8} {later : List Read} (hlater : Delivers later bytes) :
      Delivers (.interrupted :: later) bytes

/-- A chunk that is not empty comes before what is read later. -/
theorem readToEnd_cons (byte : UInt8) (others : List UInt8) (later : List Read) :
    readToEnd (.bytes (byte :: others) :: later) =
      (readToEnd later).map ((byte :: others) ++ ·) := rfl

theorem readToEnd_of_delivers {reads : List Read} {bytes : List UInt8}
    (h : Delivers reads bytes) : readToEnd reads = .ok bytes := by
  induction h with
  | done => rfl
  | ended later => rfl
  | interrupted hlater ih => exact ih
  | @chunk bytes more later hne hlater ih =>
    obtain ⟨byte, others, rfl⟩ := List.exists_cons_of_ne_nil hne
    rw [readToEnd_cons, ih]
    rfl

/-- A reader is read to its end exactly if it delivers the bytes. The induction is on what the
reader does. -/
theorem readToEnd_eq_ok_iff {reads : List Read} {bytes : List UInt8} :
    readToEnd reads = .ok bytes ↔ Delivers reads bytes := by
  refine ⟨fun h ↦ ?_, readToEnd_of_delivers⟩
  induction reads generalizing bytes with
  | nil =>
    obtain rfl := Except.ok.inj h
    exact .done
  | cons read later ih =>
    cases read with
    | interrupted => exact .interrupted (ih h)
    | failed reason => exact absurd h (by simp [readToEnd])
    | bytes chunk =>
      cases chunk with
      | nil =>
        obtain rfl := Except.ok.inj h
        exact .ended later
      | cons byte others =>
        rw [readToEnd_cons] at h
        cases hlater : readToEnd later with
        | error reason =>
          rw [hlater] at h
          exact absurd h (by simp [Except.map])
        | ok more =>
          rw [hlater] at h
          obtain rfl := Except.ok.inj h
          exact .chunk (List.cons_ne_nil byte others) (ih hlater)

/-! ### Sources that nobody can tell apart -/

/-- In every session both forms of compiling have the same answer for two sources, and leave the
session in the same state. -/
def Interchangeable (first second : Source) : Prop :=
  ∀ session : Session,
    session.act (.compile first) = session.act (.compile second) ∧
      session.act (.tryCompile first) = session.act (.tryCompile second)

namespace Interchangeable

variable {first second third : Source}

theorem trans (hfirst : Interchangeable first second) (hsecond : Interchangeable second third) :
    Interchangeable first third :=
  fun session ↦ ⟨(hfirst session).1.trans (hsecond session).1,
    (hfirst session).2.trans (hsecond session).2⟩

/-- Assumes: two sources compile alike under every format version. They are interchangeable. -/
theorem of_eq (hcompile : ∀ version, compile version first = compile version second)
    (htry : ∀ version, tryCompile version first = tryCompile version second) :
    Interchangeable first second := by
  intro session
  simp only [Session.act, hcompile, htry, and_self]

/-- Assumes: interchangeable sources. They have the same script, or none. -/
theorem value_eq (h : Interchangeable first second) (version : FormatVersion) :
    (tryCompile version first).value = (tryCompile version second).value := by
  have hanswer := congrArg Prod.fst (h (.ofOptions { formatVersion := version })).2
  exact (Answer.tried.inj hanswer).2

end Interchangeable

/-- Assumes: a reader delivers bytes. It is as good as the bytes. -/
theorem interchangeable_reader {reads : List Read} {bytes : List UInt8}
    (h : Delivers reads bytes) : Interchangeable (.reader reads) (.bytes bytes) := by
  have hread := readToEnd_of_delivers h
  refine .of_eq (fun version ↦ ?_) fun version ↦ ?_
  · simp only [compile, hread]
  · simp only [tryCompile, hread]

theorem compileBytes_encode (version : FormatVersion) (text : List Char) :
    compileBytes version (Utf8.encode text) = compileText version (Utf8.dropMark text) := by
  rw [compileBytes, Utf8.dropMarkBytes_encode, Utf8.decode_encode]

/-- The bytes of a text are as good as the text without its mark, if it begins with one. -/
theorem interchangeable_bytes (text : List Char) :
    Interchangeable (.bytes (Utf8.encode text)) (.text (Utf8.dropMark text)) := by
  refine .of_eq (fun version ↦ ?_) fun version ↦ ?_
  · simp only [compile, compileBytes_encode]
  · simp only [tryCompile, compileBytes_encode]

/-- A text that does not begin with two marks has no mark left when one is dropped. -/
theorem dropMark_dropMark {text : List Char}
    (h : ¬[Utf8.byteOrderMark, Utf8.byteOrderMark] <+: text) :
    Utf8.dropMark (Utf8.dropMark text) = Utf8.dropMark text := by
  cases text with
  | nil => rfl
  | cons c rest =>
    by_cases hc : c = Utf8.byteOrderMark
    · subst hc
      rw [Utf8.dropMark, if_pos rfl]
      cases rest with
      | nil => rfl
      | cons d later =>
        refine if_neg fun hd ↦ h ?_
        subst hd
        exact ⟨later, rfl⟩
    · rw [Utf8.dropMark, if_neg hc, Utf8.dropMark, if_neg hc]

/-- Dropping a mark that is dropped anyway changes nothing, unless another one stands behind it. -/
theorem interchangeable_dropMark {text : List Char}
    (h : ¬[Utf8.byteOrderMark, Utf8.byteOrderMark] <+: text) :
    Interchangeable (.text (Utf8.dropMark text)) (.text text) := by
  have heq : ∀ version, compileText version (Utf8.dropMark text) = compileText version text := by
    intro version
    rw [compileText, dropMark_dropMark h, ← compileText]
  refine .of_eq (fun version ↦ ?_) fun version ↦ ?_
  · simp only [compile, heq]
  · simp only [tryCompile, heq]

/-- Assumes: a reader delivers the bytes of a text. Nobody can tell the reader, the bytes and the
text without its mark apart, and if the text does not begin with two marks, nor the text itself. -/
theorem forms_interchangeable {text : List Char} {reads : List Read}
    (hreads : Delivers reads (Utf8.encode text)) :
    Interchangeable (.reader reads) (.bytes (Utf8.encode text)) ∧
      Interchangeable (.bytes (Utf8.encode text)) (.text (Utf8.dropMark text)) ∧
      (¬[Utf8.byteOrderMark, Utf8.byteOrderMark] <+: text →
        Interchangeable (.bytes (Utf8.encode text)) (.text text)) :=
  ⟨interchangeable_reader hreads, interchangeable_bytes text,
    fun htwo ↦ (interchangeable_bytes text).trans (interchangeable_dropMark htwo)⟩

/-- A reader that is interrupted twice and cuts both the mark and a letter into halves. -/
theorem forms_interchangeable_halves :
    Delivers [.bytes [0xEF], .interrupted, .bytes [0xBB, 0xBF, 0x5B, 0xC3], .interrupted,
        .bytes [0xA9]] (Utf8.encode ['\ufeff', '[', 'é']) ∧
      Interchangeable (.reader [.bytes [0xEF], .interrupted, .bytes [0xBB, 0xBF, 0x5B, 0xC3],
        .interrupted, .bytes [0xA9]]) (.text ['\ufeff', '[', 'é']) := by
  have hreads : Delivers [.bytes [0xEF], .interrupted, .bytes [0xBB, 0xBF, 0x5B, 0xC3],
      .interrupted, .bytes [0xA9]] (Utf8.encode ['\ufeff', '[', 'é']) :=
    readToEnd_eq_ok_iff.mp (by decide)
  have hforms := forms_interchangeable hreads
  exact ⟨hreads, hforms.1.trans (hforms.2.2 (by decide))⟩

/-- Two marks in front of a script: the bytes compile, the text does not. -/
theorem not_interchangeable_two_marks :
    ¬Interchangeable (.bytes (Utf8.encode "\ufeff\ufeff[sel a]x".toList))
      (.text "\ufeff\ufeff[sel a]x".toList) := by
  intro h
  have hbytes : (tryCompile .v1 (.bytes (Utf8.encode "\ufeff\ufeff[sel a]x".toList))).value.isSome =
      true := by cbv
  have htext : (tryCompile .v1 (.text "\ufeff\ufeff[sel a]x".toList)).value.isSome = false := by cbv
  rw [h.value_eq .v1, htext] at hbytes
  exact Bool.noConfusion hbytes

end DialogueScript
