import DialogueScript.Proofs.Compile.Forms
import DialogueScript.Proofs.Diagnostics.Emission
import DialogueScript.Proofs.Syntax.Spans
import DialogueScript.Proofs.Text.Undecodable

/-!
# Compiling bytes that are no text

Bytes that are no text behind at most one mark of byte order are reported where they stop being one:
with the index behind the longest text whose bytes stand in front, and with the line and column
behind this text. The compiler counts them with a rule of its own, by looking for the last line
feed, and they are the ones that a node which begins there has in any source that begins with this
text (`Position.scan_eq_endPosition`). All other bytes are as good as their text
(`tryCompile_bytes_located`).
-/

set_option autoImplicit false
set_option relaxedAutoImplicit false

namespace DialogueScript

/-! ### Positions -/

/-- Looking for the last line feed comes to the same as reading character by character. The
induction is from the end of the text, where the line feed is looked for. -/
theorem endPosition_eq_after (text : List Char) : endPosition text = Position.start.after text := by
  induction text using List.reverseRecOn with
  | nil => rfl
  | append_singleton front c ih =>
    rw [Position.after_append, ← ih, Position.after_cons, Position.after_nil, Position.advance,
      endPosition, endPosition, List.count_append, List.reverse_append]
    by_cases hc : c = '\n'
    · subst hc
      simp
    · simp [hc]

/-- The position behind a text in a source that begins with it, where a line feed and a pair of a
carriage return and a line feed open the next line. -/
theorem Position.scan_eq_endPosition {text source : List Char} (h : text <+: source) :
    Position.start.scan (source.take text.length) = endPosition text := by
  rw [Position.scan_eq_after, endPosition_eq_after, ← List.prefix_iff_eq_take.mp h]

/-- Assumes: a source that begins with a text is read as a tree. A node that begins behind the text
has the position behind it. -/
theorem position_eq_endPosition {text source : List Char} {document : Syntax.Document}
    (hparse : Syntax.parse source = .ok document) (h : text <+: source) {node : Syntax.Node}
    (hnode : node ∈ document.node.preorder) (hoffset : node.place.offset = text.length) :
    node.place.position = endPosition text := by
  obtain ⟨_, _, hexact, _⟩ := Syntax.parse_spans hparse
  rw [(hexact node hnode).position, hoffset, Position.scan_eq_endPosition h]

/-! ### Events -/

/-- An event says that a source is not UTF-8. -/
def Event.SaysNotUtf8 (event : Event) : Prop :=
  "Source is not valid UTF-8: ".toList <+: event.message.toList

/-- No other finding of a compilation has this wording. -/
theorem Finding.exists_eq_notUtf8 {finding : Finding} {channel : String}
    (h : (finding.toEvent channel).SaysNotUtf8) :
    ∃ fault position, finding = .notUtf8 fault position := by
  unfold Event.SaysNotUtf8 toEvent message at h
  cases finding with
  | notUtf8 fault position => exact ⟨fault, position, rfl⟩
  | defect defect position =>
    unfold Defect.message at h
    cases defect <;> simp [String.toList_append] at h
  | _ => simp [String.toList_append] at h

/-- The compilation of a text reports no bytes. -/
theorem ne_notUtf8_of_mem_compileText (version : FormatVersion) (text : List Char) :
    ∀ finding ∈ (compileText version text).findings, ∀ fault position,
      finding ≠ .notUtf8 fault position := by
  have hpasses : ∀ {findings : List Finding}, (∀ finding ∈ findings, finding.IsPassing) →
      ∀ finding ∈ findings, ∀ fault position, finding ≠ .notUtf8 fault position := by
    rintro findings hpassing finding hfinding fault position rfl
    rcases hpassing _ hfinding with h | h <;> exact Level.noConfusion h
  unfold compileText
  cases Syntax.parse (Utf8.dropMark text) with
  | error error => simp [giveUp]
  | ok document =>
    have hreports := reports_script document version
    dsimp only
    generalize document.script version = step at hreports ⊢
    generalize document.node.complaints = complaints at hreports
    cases hreports with
    | done hpassing => exact hpasses hpassing
    | stopped hpassing =>
      simp only [giveUp, List.append_assoc]
      exact List.forall_mem_append.mpr ⟨hpasses hpassing, by simp⟩

/-- How the kind of a fault is worded. -/
inductive FaultKind : String → Prop
  | invalid (n : Nat) : FaultKind ("invalid utf-8 sequence of " ++ Decimal.ofNat n ++ " bytes")
  | incomplete : FaultKind "incomplete utf-8 byte sequence"

/-- The wording of a fault ends with its index. -/
theorem exists_message_eq (fault : Utf8.Fault) :
    ∃ kind, FaultKind kind ∧
      fault.message = kind ++ " from index " ++ Decimal.ofNat fault.index := by
  obtain ⟨index, length⟩ := fault
  cases length with
  | none => exact ⟨_, .incomplete, rfl⟩
  | some n =>
    refine ⟨_, .invalid n, ?_⟩
    have hwords : " bytes from index " = " bytes" ++ " from index " := rfl
    simp only [Utf8.Fault.message, hwords, String.append_assoc]

/-! ### Bytes -/

/-- A compiler with a recorder that tries bytes has no script, and the recorder holds that the bytes
are no text from the end of a text on, and that the compilation fails. The position is the one
behind the text in every source that begins with it, and that of each node which begins there. -/
structure LocatesFault (options : Options) (recorder : String) (bytes : List UInt8)
    (text : List Char) (kind : String) (position : Position) : Prop where
  report : ∃ final,
    (Session.recording options recorder).act (.tryCompile (.bytes bytes)) =
        (.tried [] none, final) ∧
      final.recorded recorder =
        [⟨options.channel, .error, "Source is not valid UTF-8: " ++
            (kind ++ " from index " ++ Decimal.ofNat (Utf8.encode text).length), some position⟩,
          ⟨options.channel, .fatal, "Failed to compile message script", none⟩]
  scanned : ∀ source, text <+: source →
    Position.start.scan (source.take text.length) = position
  nodes : ∀ source document, Syntax.parse source = .ok document → text <+: source →
    ∀ node ∈ document.node.preorder, node.place.offset = text.length →
      node.place.position = position

/-- Assumes: a fault is located behind the longest text in front of bytes, and the bytes are
decoded. It is located behind what is decoded, and it has the kind that is worded. -/
theorem LocatesFault.decoded {options : Options} {recorder : String} {bytes rest : List UInt8}
    {text decoded : List Char} {kind known : String} {position : Position} {fault : Utf8.Fault}
    (h : LocatesFault options recorder bytes text kind position)
    (hlongest : Utf8.IsLongest text rest) (hrest : Utf8.BehindMark bytes rest)
    (hdecode : Utf8.decode rest = ⟨decoded, some fault⟩)
    (hmessage : fault.message =
      known ++ (" from index " ++ Decimal.ofNat (Utf8.encode decoded).length)) :
    LocatesFault options recorder bytes decoded known (endPosition decoded) := by
  obtain rfl : text = decoded := by
    rcases Utf8.decode_exact rest with ⟨other, hother, -⟩ | ⟨other, length, hother, hexact, -⟩
    · exact absurd ((Utf8.Decoded.mk.inj (hother.symm.trans hdecode)).2) (by simp)
    · rw [← (Utf8.Decoded.mk.inj (hother.symm.trans hdecode)).1]
      exact hlongest.eq hexact
  obtain rfl : position = endPosition text := by
    rw [← h.scanned text List.prefix_rfl, Position.scan_eq_endPosition List.prefix_rfl]
  obtain ⟨final, hact, hfinal⟩ := h.report
  have htry : tryCompile options.formatVersion (.bytes bytes) =
      giveUp [.notUtf8 fault (endPosition text)] none := by
    rw [tryCompile, compileBytes, Utf8.behindMark_iff.mp hrest, hdecode]
  rw [Session.act_tryCompile_recording, htry] at hact
  obtain rfl : _ = final := congrArg Prod.snd hact
  rw [Session.recorded_emitAll_recording] at hfinal
  have hwords : "Source is not valid UTF-8: " ++ fault.message = "Source is not valid UTF-8: " ++
      (kind ++ " from index " ++ Decimal.ofNat (Utf8.encode text).length) :=
    congrArg Event.message (List.head_eq_of_cons_eq hfinal)
  rw [String.append_right_inj, hmessage, String.append_assoc, String.append_left_inj] at hwords
  rw [hwords]
  exact h

/-- Bytes that are no text behind at most one mark of byte order are reported from the end of the
longest text in front of them on. All other bytes are as good as their text, and nothing is said
about their encoding. -/
theorem tryCompile_bytes_located (options : Options) (recorder : String) (bytes : List UInt8) :
    (∃! rest, Utf8.BehindMark bytes rest) ∧ ∀ rest, Utf8.BehindMark bytes rest →
      ((∀ text, Utf8.encode text ≠ rest) →
        ∃ text kind position, Utf8.IsLongest text rest ∧ FaultKind kind ∧
          LocatesFault options recorder bytes text kind position) ∧
      ∀ text, Utf8.encode text = rest →
        Interchangeable (.bytes bytes) (.text text) ∧
          ∀ event ∈ ((Session.recording options recorder).act
              (.tryCompile (.bytes bytes))).2.recorded recorder, ¬event.SaysNotUtf8 := by
  refine ⟨Utf8.existsUnique_behindMark bytes, fun rest hrest ↦ ?_⟩
  have hdrop := Utf8.behindMark_iff.mp hrest
  constructor
  · intro hnot
    rcases Utf8.decode_exact rest with
      ⟨text, _, htext⟩ | ⟨text, length, hdecode, hlongest, _⟩
    · exact absurd htext (hnot text)
    obtain ⟨kind, hkind, hmessage⟩ := exists_message_eq ⟨(Utf8.encode text).length, length⟩
    have htry : tryCompile options.formatVersion (.bytes bytes) =
        giveUp [.notUtf8 ⟨(Utf8.encode text).length, length⟩ (endPosition text)] none := by
      rw [tryCompile, compileBytes, hdrop, hdecode]
    refine ⟨text, kind, endPosition text, hlongest, hkind, ?_, ?_, ?_⟩
    · have hact := Session.act_tryCompile_recording options recorder (.bytes bytes)
      rw [htry] at hact
      refine ⟨_, hact, ?_⟩
      rw [Session.recorded_emitAll_recording, ← hmessage]
      rfl
    · exact fun source h ↦ Position.scan_eq_endPosition h
    · exact fun source document hparse h node ↦ position_eq_endPosition hparse h
  · intro text htext
    have hbytes : ∀ version, compileBytes version bytes = compileText version text := by
      intro version
      rw [compileBytes, hdrop, ← htext, Utf8.decode_encode]
    refine ⟨.of_eq (fun version ↦ congrArg Step.conclude (hbytes version)) hbytes, ?_⟩
    rw [Session.act_tryCompile_recording, Session.recorded_emitAll_recording]
    intro event hevent hsays
    obtain ⟨finding, hfinding, rfl⟩ := List.mem_map.mp hevent
    obtain ⟨fault, position, hfault⟩ := Finding.exists_eq_notUtf8 hsays
    have htry : tryCompile options.formatVersion (.bytes bytes) =
        compileText options.formatVersion text := hbytes options.formatVersion
    rw [htry] at hfinding
    exact ne_notUtf8_of_mem_compileText _ _ finding hfinding fault position hfault

/-- Bytes that end within a letter behind a mark and a line ending of two characters, a byte behind
a mark with which no letter begins, and the bytes of a letter. -/
theorem tryCompile_bytes_located_cut :
    (Utf8.BehindMark [0xEF, 0xBB, 0xBF, 0x78, 0x0D, 0x0A, 0xC3] [0x78, 0x0D, 0x0A, 0xC3] ∧
      (∀ text, Utf8.encode text ≠ [0x78, 0x0D, 0x0A, 0xC3]) ∧
      (Utf8.encode ['x', '\r', '\n']).length = 3 ∧
      LocatesFault {} "events" [0xEF, 0xBB, 0xBF, 0x78, 0x0D, 0x0A, 0xC3] ['x', '\r', '\n']
        "incomplete utf-8 byte sequence" ⟨2, 1⟩) ∧
    (Utf8.BehindMark [0xEF, 0xBB, 0xBF, 0xFF] [0xFF] ∧ (∀ text, Utf8.encode text ≠ [0xFF]) ∧
      (Utf8.encode []).length = 0 ∧
      LocatesFault {} "events" [0xEF, 0xBB, 0xBF, 0xFF] [] "invalid utf-8 sequence of 1 bytes"
        ⟨1, 1⟩) ∧
    Utf8.BehindMark [0xC3, 0xA9] [0xC3, 0xA9] ∧ Utf8.encode ['é'] = [0xC3, 0xA9] ∧
      Interchangeable (.bytes [0xC3, 0xA9]) (.text ['é']) := by
  have hnot : ∀ rest, (Utf8.decode rest).fault ≠ none → ∀ text, Utf8.encode text ≠ rest := by
    rintro rest hfault text rfl
    exact hfault (by rw [Utf8.decode_encode])
  refine ⟨⟨.marked _, hnot _ (by decide), rfl, ?_⟩, ⟨.marked _, hnot _ (by decide), rfl, ?_⟩,
    .unmarked (by decide), by decide, ?_⟩
  · obtain ⟨text, kind, position, hlongest, -, hlocates⟩ :=
      ((tryCompile_bytes_located {} "events" _).2 _ (.marked [0x78, 0x0D, 0x0A, 0xC3])).1
        (hnot _ (by decide))
    have hdecode : Utf8.decode [0x78, 0x0D, 0x0A, 0xC3] =
        ⟨['x', '\r', '\n'], some ⟨3, none⟩⟩ := by decide
    exact hlocates.decoded hlongest (.marked _) hdecode rfl
  · obtain ⟨text, kind, position, hlongest, -, hlocates⟩ :=
      ((tryCompile_bytes_located {} "events" _).2 _ (.marked [0xFF])).1 (hnot _ (by decide))
    have hdecode : Utf8.decode [0xFF] = ⟨[], some ⟨0, some 1⟩⟩ := by decide
    exact hlocates.decoded hlongest (.marked _) hdecode (by cbv)
  · exact (((tryCompile_bytes_located {} "events" _).2 _ (.unmarked (by decide))).2 _
      (by decide)).1

end DialogueScript
