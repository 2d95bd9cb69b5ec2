import DialogueScript.Text.Utf8
import Mathlib.Data.List.Basic

/-!
# Encoded texts decode

Decoding the UTF-8 bytes of a text gives the text back, without a fault (`decode_encode`). The
decoder reads a character byte by byte: its first byte opens a sequence with the upper bits
(`lead_two`, `lead_three`, `lead_four`), and every further byte adds six bits (`decodeFrom_more`)
until the last one completes the character (`decodeFrom_last`).

A mark of byte order in front of a text is the same mark in front of its bytes, so that it makes no
difference whether it is dropped before or after decoding (`dropMarkBytes_encode`).
-/

set_option autoImplicit false
set_option relaxedAutoImplicit false

namespace DialogueScript.Utf8

variable {index bits read missing n v : Nat} {low high : UInt8} {rest : List UInt8}

theorem toNat_ofNat (h : n < 256) : (UInt8.ofNat n).toNat = n := by
  rw [UInt8.toNat_ofNat']
  omega

/-! ### Bytes of a sequence -/

/-- A byte is in a range if its number is. -/
theorem byte_mem_range (hn : n < 64) (hlow : low.toNat ≤ n + 128)
    (hhigh : n + 128 ≤ high.toNat) :
    low ≤ UInt8.ofNat (n + 128) ∧ UInt8.ofNat (n + 128) ≤ high := by
  rw [UInt8.le_iff_toNat_le, UInt8.le_iff_toNat_le, toNat_ofNat (show n + 128 < 256 by omega)]
  exact ⟨hlow, hhigh⟩

/-- Assumes: a byte in the range of an open sequence of which it is the last. The sequence is a
character. -/
theorem decodeFrom_last (hn : n < 64) (hlow : low.toNat ≤ n + 128) (hhigh : n + 128 ≤ high.toNat) :
    decodeFrom index (some ⟨bits, read, 1, low, high⟩) (UInt8.ofNat (n + 128) :: rest) =
      (decodeFrom (index + 1) none rest).cons (Char.ofNat (bits * 64 + n)) := by
  rw [decodeFrom]
  simp only [if_pos (byte_mem_range hn hlow hhigh), toNat_ofNat (show n + 128 < 256 by omega),
    Nat.add_sub_cancel]

/-- Assumes: a byte in the range of an open sequence that lacks more than this byte. It adds its
six bits to the sequence. -/
theorem decodeFrom_more (hn : n < 64) (hlow : low.toNat ≤ n + 128) (hhigh : n + 128 ≤ high.toNat) :
    decodeFrom index (some ⟨bits, read, missing + 2, low, high⟩) (UInt8.ofNat (n + 128) :: rest) =
      decodeFrom (index + 1) (some ⟨bits * 64 + n, read + 1, missing + 1, 0x80, 0xBF⟩) rest := by
  rw [decodeFrom]
  simp only [if_pos (byte_mem_range hn hlow hhigh), toNat_ofNat (show n + 128 < 256 by omega),
    Nat.add_sub_cancel]

/-- Assumes: the first of several bytes of a character. Reading it opens a sequence. -/
theorem decodeFrom_lead {pending : Pending} {byte : UInt8} (h : lead byte = .begins pending) :
    decodeFrom index none (byte :: rest) = decodeFrom (index + 1) (some pending) rest := by
  rw [decodeFrom]
  simp only [h]

theorem lead_one (hn : n < 0x80) : lead (UInt8.ofNat n) = .whole (Char.ofNat n) := by
  simp only [lead, toNat_ofNat (show n < 256 by omega), if_pos hn]

theorem lead_two (hlow : 2 ≤ n) (hhigh : n < 32) :
    lead (UInt8.ofNat (n + 192)) = .begins ⟨n, 1, 1, 0x80, 0xBF⟩ := by
  simp only [lead, toNat_ofNat (show n + 192 < 256 by omega)]
  rw [if_neg (by omega), if_pos (by omega), Nat.add_sub_cancel]

/-- The range of the second byte of three leaves out what two bytes can write and the surrogates. -/
theorem lead_three (hn : n < 16) :
    ∃ low high, lead (UInt8.ofNat (n + 224)) = .begins ⟨n, 1, 2, low, high⟩ ∧
      low.toNat = (if n = 0 then 160 else 128) ∧ high.toNat = if n = 13 then 159 else 191 := by
  simp only [lead, toNat_ofNat (show n + 224 < 256 by omega)]
  rw [if_neg (by omega), if_neg (by omega)]
  by_cases hzero : n = 0
  · subst hzero
    exact ⟨0xA0, 0xBF, rfl, rfl, rfl⟩
  · by_cases hsurrogate : n = 13
    · subst hsurrogate
      exact ⟨0x80, 0x9F, rfl, rfl, rfl⟩
    · rw [if_neg (by omega), if_neg (by omega), if_pos (by omega), if_neg hzero, if_neg hsurrogate,
        Nat.add_sub_cancel]
      exact ⟨0x80, 0xBF, rfl, rfl, rfl⟩

/-- The range of the second byte of four leaves out what three bytes can write and what is no
character. -/
theorem lead_four (hn : n < 5) :
    ∃ low high, lead (UInt8.ofNat (n + 240)) = .begins ⟨n, 1, 3, low, high⟩ ∧
      low.toNat = (if n = 0 then 144 else 128) ∧ high.toNat = if n = 4 then 143 else 191 := by
  match n, hn with
  | 0, _ => exact ⟨0x90, 0xBF, rfl, rfl, rfl⟩
  | 1, _ => exact ⟨0x80, 0xBF, rfl, rfl, rfl⟩
  | 2, _ => exact ⟨0x80, 0xBF, rfl, rfl, rfl⟩
  | 3, _ => exact ⟨0x80, 0xBF, rfl, rfl, rfl⟩
  | 4, _ => exact ⟨0x80, 0x8F, rfl, rfl, rfl⟩

/-! ### Characters -/

/-- The bytes of a character in front of others. The cases are the lengths of a sequence. -/
theorem decodeFrom_utf8EncodeChar (index : Nat) (c : Char) (rest : List UInt8) :
    decodeFrom index none (String.utf8EncodeChar c ++ rest) =
      (decodeFrom (index + (String.utf8EncodeChar c).length) none rest).cons c := by
  have hvalid : c.toNat < 55296 ∨ 57343 < c.toNat ∧ c.toNat < 1114112 := c.valid
  have hchar : Char.ofNat c.toNat = c := Char.ofNat_toNat c
  have hval : c.val.toNat = c.toNat := rfl
  have hlow : (0x80 : UInt8).toNat = 128 := rfl
  have hhigh : (0xBF : UInt8).toNat = 191 := rfl
  unfold String.utf8EncodeChar
  simp only [hval]
  generalize c.toNat = v at hvalid hchar
  split_ifs with hone htwo hthree
  · rw [List.singleton_append, decodeFrom]
    simp only [lead_one (show v < 0x80 by omega), hchar, List.length_singleton]
  · have hbits : v / 64 % 32 * 64 + v % 64 = v := by omega
    simp only [List.cons_append, List.nil_append, List.length_cons, List.length_nil]
    rw [decodeFrom_lead (lead_two (by omega) (by omega)),
      decodeFrom_last (by omega) (by omega) (by omega), hbits, hchar]
  · have hbits : (v / 4096 % 16 * 64 + v / 64 % 64) * 64 + v % 64 = v := by omega
    obtain ⟨low, high, hlead, hlower, hupper⟩ :=
      lead_three (show v / 4096 % 16 < 16 by omega)
    simp only [List.cons_append, List.nil_append, List.length_cons, List.length_nil]
    rw [decodeFrom_lead hlead, decodeFrom_more (by omega) (by split_ifs at hlower <;> omega)
      (by split_ifs at hupper <;> omega), decodeFrom_last (by omega) (by omega) (by omega), hbits,
      hchar]
  · have hbits : ((v / 262144 % 8 * 64 + v / 4096 % 64) * 64 + v / 64 % 64) * 64 + v % 64 = v := by
      omega
    obtain ⟨low, high, hlead, hlower, hupper⟩ :=
      lead_four (show v / 262144 % 8 < 5 by omega)
    simp only [List.cons_append, List.nil_append, List.length_cons, List.length_nil]
    rw [decodeFrom_lead hlead, decodeFrom_more (by omega) (by split_ifs at hlower <;> omega)
      (by split_ifs at hupper <;> omega), decodeFrom_more (by omega) (by omega) (by omega),
      decodeFrom_last (by omega) (by omega) (by omega), hbits, hchar]

theorem decodeFrom_encode (index : Nat) (text : List Char) :
    decodeFrom index none (encode text) = ⟨text, none⟩ := by
  induction text generalizing index with
  | nil => rfl
  | cons c rest ih =>
    rw [encode, List.flatMap_cons, decodeFrom_utf8EncodeChar, ← encode, ih]
    rfl

/-- The bytes of a text decode to the text. -/
theorem decode_encode (text : List Char) : decode (encode text) = ⟨text, none⟩ :=
  decodeFrom_encode 0 text

/-! ### The mark of byte order -/

theorem utf8EncodeChar_mark : String.utf8EncodeChar byteOrderMark = [0xEF, 0xBB, 0xBF] := by
  decide

theorem encode_mark_cons (rest : List Char) :
    encode (byteOrderMark :: rest) = 0xEF :: 0xBB :: 0xBF :: encode rest := by
  rw [encode, List.flatMap_cons, utf8EncodeChar_mark]
  rfl

/-- Bytes that begin with the mark decode to a text that begins with it. -/
theorem head?_decode_mark (rest : List UInt8) :
    (decode (0xEF :: 0xBB :: 0xBF :: rest)).text.head? = some byteOrderMark := by
  have hdecode := decodeFrom_utf8EncodeChar 0 byteOrderMark rest
  rw [utf8EncodeChar_mark] at hdecode
  rw [decode]
  exact congrArg (fun decoded ↦ decoded.text.head?) hdecode

/-- The mark may be dropped from a text or from its bytes. -/
theorem dropMarkBytes_encode (text : List Char) :
    dropMarkBytes (encode text) = encode (dropMark text) := by
  unfold dropMarkBytes
  split
  · rename_i rest hbytes
    have hhead := head?_decode_mark rest
    rw [← hbytes, decode_encode] at hhead
    obtain ⟨later, rfl⟩ : ∃ later, text = byteOrderMark :: later := by
      cases text with
      | nil => exact absurd hhead (by simp)
      | cons c later => exact ⟨later, congrArg (· :: later) (Option.some.inj hhead)⟩
    rw [encode_mark_cons] at hbytes
    simp only [List.cons.injEq, true_and] at hbytes
    rw [dropMark, if_pos rfl, hbytes]
  · rename_i hbytes
    cases text with
    | nil => rfl
    | cons c later =>
      have hc : c ≠ byteOrderMark := by
        rintro rfl
        exact hbytes _ (encode_mark_cons later)
      rw [dropMark, if_neg hc]

end DialogueScript.Utf8
