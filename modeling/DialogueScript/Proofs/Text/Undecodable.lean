import DialogueScript.Proofs.Text.Utf8

/-!
# Bytes that are no text

The decoder is exact: what it gives is the longest text whose bytes stand in front, it finds a fault
exactly if this is not all of the bytes, and the fault has the index behind these bytes
(`decode_exact`).

`Opens` says which sequences the decoder has open: a first byte opens one, and a byte in its range
goes on with it. The byte that ends an open sequence makes it the bytes of a character
(`Opens.utf8EncodeChar_eq`), since the ranges leave out every form that is not the shortest, the
surrogates and what is no character at all. Each step of the decoder therefore keeps what it says
true of the bytes read so far (`Sound`), and `sound_decodeFrom` proves it of a whole run.

What stands behind at most one mark of byte order is told by the three bytes of the mark alone
(`BehindMark`), and it is what the compiler goes on with (`behindMark_iff`).
-/

set_option autoImplicit false
set_option relaxedAutoImplicit false

namespace DialogueScript.Utf8

variable {byte x a b c low high : UInt8} {bytes opened rest : List UInt8} {pending : Pending}
  {n start : Nat} {decoded : Decoded}

/-! ### Characters from their bytes -/

theorem ofNat_eq_of_eq_toNat (byte : UInt8) (h : n = byte.toNat) : UInt8.ofNat n = byte := by
  rw [h, UInt8.ofNat_toNat]

theorem toNat_val_ofNat (h : n.isValidChar) : (Char.ofNat n).val.toNat = n := by
  rw [Char.ofNat, dif_pos h]
  rfl

/-- Assumes: two bytes of which the first is high enough. They are the bytes of a character. -/
theorem utf8EncodeChar_two (hx : 194 ≤ x.toNat ∧ x.toNat < 224)
    (ha : 128 ≤ a.toNat ∧ a.toNat < 192) (hn : n = (x.toNat - 192) * 64 + (a.toNat - 128)) :
    String.utf8EncodeChar (Char.ofNat n) = [x, a] := by
  have hval : (Char.ofNat n).val.toNat = n := toNat_val_ofNat (Or.inl (by omega))
  unfold String.utf8EncodeChar
  simp only [hval]
  rw [if_neg (by omega), if_pos (by omega), ofNat_eq_of_eq_toNat x (by omega),
    ofNat_eq_of_eq_toNat a (by omega)]

/-- Assumes: three bytes that spell a scalar value which two bytes cannot spell. They are the bytes
of a character. -/
theorem utf8EncodeChar_three (hx : 224 ≤ x.toNat ∧ x.toNat < 240)
    (ha : 128 ≤ a.toNat ∧ a.toNat < 192) (hb : 128 ≤ b.toNat ∧ b.toNat < 192)
    (hn : n = ((x.toNat - 224) * 64 + (a.toNat - 128)) * 64 + (b.toNat - 128))
    (hshort : 2048 ≤ n) (hvalid : n.isValidChar) :
    String.utf8EncodeChar (Char.ofNat n) = [x, a, b] := by
  have hval : (Char.ofNat n).val.toNat = n := toNat_val_ofNat hvalid
  unfold String.utf8EncodeChar
  simp only [hval]
  rw [if_neg (by omega), if_neg (by omega), if_pos (by omega),
    ofNat_eq_of_eq_toNat x (by omega), ofNat_eq_of_eq_toNat a (by omega),
    ofNat_eq_of_eq_toNat b (by omega)]

/-- Assumes: four bytes that spell a scalar value which three bytes cannot spell. They are the bytes
of a character. -/
theorem utf8EncodeChar_four (hx : 240 ≤ x.toNat ∧ x.toNat < 248)
    (ha : 128 ≤ a.toNat ∧ a.toNat < 192) (hb : 128 ≤ b.toNat ∧ b.toNat < 192)
    (hc : 128 ≤ c.toNat ∧ c.toNat < 192)
    (hn : n = (((x.toNat - 240) * 64 + (a.toNat - 128)) * 64 + (b.toNat - 128)) * 64 +
      (c.toNat - 128))
    (hshort : 65536 ≤ n) (hvalid : n.isValidChar) :
    String.utf8EncodeChar (Char.ofNat n) = [x, a, b, c] := by
  have hval : (Char.ofNat n).val.toNat = n := toNat_val_ofNat hvalid
  unfold String.utf8EncodeChar
  simp only [hval]
  rw [if_neg (by omega), if_neg (by omega), if_neg (by omega),
    ofNat_eq_of_eq_toNat x (by omega), ofNat_eq_of_eq_toNat a (by omega),
    ofNat_eq_of_eq_toNat b (by omega), ofNat_eq_of_eq_toNat c (by omega)]

/-! ### Open sequences -/

/-- A first byte is a character by itself only if this is its one byte. -/
theorem utf8EncodeChar_of_lead_whole {char : Char} (h : lead byte = .whole char) :
    String.utf8EncodeChar char = [byte] := by
  unfold lead at h
  dsimp only at h
  split_ifs at h with hone
  obtain rfl := Lead.whole.inj h
  unfold String.utf8EncodeChar
  simp only [@toNat_val_ofNat byte.toNat (Or.inl (by omega))]
  rw [if_pos (by omega), ofNat_eq_of_eq_toNat byte rfl]

/-- What a first byte of two, three or four says about the next. -/
theorem lead_begins (h : lead byte = .begins pending) :
    (pending = ⟨byte.toNat - 192, 1, 1, 0x80, 0xBF⟩ ∧ 194 ≤ byte.toNat ∧ byte.toNat < 224) ∨
    (∃ low high, pending = ⟨byte.toNat - 224, 1, 2, low, high⟩ ∧
      224 ≤ byte.toNat ∧ byte.toNat < 240 ∧
      low.toNat = (if byte.toNat = 224 then 160 else 128) ∧
      high.toNat = if byte.toNat = 237 then 159 else 191) ∨
    (∃ low high, pending = ⟨byte.toNat - 240, 1, 3, low, high⟩ ∧
      240 ≤ byte.toNat ∧ byte.toNat < 245 ∧
      low.toNat = (if byte.toNat = 240 then 144 else 128) ∧
      high.toNat = if byte.toNat = 244 then 143 else 191) := by
  unfold lead at h
  dsimp only at h
  split_ifs at h with hone htwo hE0 hED hthree hF0 hfour hF4
  all_goals obtain rfl := Lead.begins.inj h
  · exact .inl ⟨rfl, by omega, by omega⟩
  · exact .inr (.inl ⟨0xA0, 0xBF, by rw [hE0], by omega, by omega, by simp [hE0], by simp [hE0]⟩)
  · exact .inr (.inl ⟨0x80, 0x9F, by rw [hED], by omega, by omega, by simp [hED], by simp [hED]⟩)
  · exact .inr (.inl ⟨0x80, 0xBF, rfl, by omega, by omega, by simp [hE0], by simp [hED]⟩)
  · exact .inr (.inr ⟨0x90, 0xBF, by rw [hF0], by omega, by omega, by simp [hF0], by simp [hF0]⟩)
  · exact .inr (.inr ⟨0x80, 0xBF, rfl, by omega, by omega, by simp [hF0], by simp; omega⟩)
  · exact .inr (.inr ⟨0x80, 0x8F, by rw [hF4], by omega, by omega, by simp [hF4], by simp [hF4]⟩)

/-- Bytes open a sequence when the first of them does and the others go on with it. -/
inductive Opens : List UInt8 → Pending → Prop
  /-- A first byte. -/
  | lead {byte : UInt8} {pending : Pending} (h : lead byte = .begins pending) :
      Opens [byte] pending
  /-- A byte in the range of a sequence that lacks more than this byte. -/
  | more {opened : List UInt8} {byte : UInt8} {pending : Pending} {missing : Nat}
      (h : Opens opened pending) (hmissing : pending.missing = missing + 2)
      (hrange : pending.low ≤ byte ∧ byte ≤ pending.high) :
      Opens (opened ++ [byte])
        ⟨pending.bits * 64 + (byte.toNat - 128), pending.read + 1, missing + 1, 0x80, 0xBF⟩

namespace Opens

theorem length_eq (h : Opens opened pending) : pending.read = opened.length := by
  induction h with
  | lead h => rcases lead_begins h with ⟨rfl, _⟩ | ⟨_, _, rfl, _⟩ | ⟨_, _, rfl, _⟩ <;> rfl
  | more _ _ _ ih => simpa using ih

/-- A sequence has at most four bytes, and one that is open lacks some. -/
theorem missing_bounds (h : Opens opened pending) : 0 < pending.missing ∧ pending.missing ≤ 3 := by
  induction h with
  | lead h => rcases lead_begins h with ⟨rfl, _⟩ | ⟨_, _, rfl, _⟩ | ⟨_, _, rfl, _⟩ <;> simp
  | more _ hmissing _ ih => exact ⟨Nat.succ_pos _, by dsimp only; omega⟩

/-- Assumes: an open sequence that lacks one byte. A byte in its range makes it the bytes of a
character. The cases are the bytes that have been read. -/
theorem utf8EncodeChar_eq (h : Opens opened pending) (hlast : pending.missing = 1)
    (hrange : pending.low ≤ byte ∧ byte ≤ pending.high) :
    String.utf8EncodeChar (Char.ofNat (pending.bits * 64 + (byte.toNat - 128))) =
      opened ++ [byte] := by
  rw [UInt8.le_iff_toNat_le, UInt8.le_iff_toNat_le] at hrange
  have hlow : (0x80 : UInt8).toNat = 128 := rfl
  have hhigh : (0xBF : UInt8).toNat = 191 := rfl
  cases h with
  | lead h =>
    rcases lead_begins h with ⟨rfl, hx⟩ | ⟨_, _, rfl, _⟩ | ⟨_, _, rfl, _⟩
    · dsimp only at hrange ⊢
      exact utf8EncodeChar_two hx (by omega) rfl
    · exact absurd hlast (by simp)
    · exact absurd hlast (by simp)
  | more h hsecond hrangeSecond =>
    rw [UInt8.le_iff_toNat_le, UInt8.le_iff_toNat_le] at hrangeSecond
    dsimp only at hlast hrange ⊢
    cases h with
    | lead h =>
      rcases lead_begins h with ⟨rfl, _⟩ | ⟨low, high, rfl, hx⟩ | ⟨_, _, rfl, _⟩
      · exact absurd hsecond (by simp)
      · dsimp only at hrangeSecond ⊢
        refine utf8EncodeChar_three (by omega) (by split_ifs at hx <;> omega) (by omega) rfl
          (by split_ifs at hx <;> omega) ?_
        unfold Nat.isValidChar
        split_ifs at hx <;> omega
      · dsimp only at hsecond
        omega
    | more h hthird hrangeThird =>
      rw [UInt8.le_iff_toNat_le, UInt8.le_iff_toNat_le] at hrangeThird
      dsimp only at hsecond hrangeSecond ⊢
      cases h with
      | lead h =>
        rcases lead_begins h with ⟨rfl, _⟩ | ⟨_, _, rfl, _⟩ | ⟨low, high, rfl, hx⟩
        · exact absurd hthird (by simp)
        · dsimp only at hthird
          omega
        · dsimp only at hrangeThird ⊢
          refine utf8EncodeChar_four (by omega) (by split_ifs at hx <;> omega) (by omega)
            (by omega) rfl (by split_ifs at hx <;> omega) ?_
          unfold Nat.isValidChar
          split_ifs at hx <;> omega
      | more h hfourth =>
        have hbounds := h.missing_bounds
        dsimp only at hthird
        omega

end Opens

/-! ### Runs of the decoder -/

/-- What is decoded of bytes of which the first has an index: a text whose bytes stand in front.
They are all of the bytes, or else there is a fault with the index behind them. -/
inductive Sound (start : Nat) (bytes : List UInt8) : Decoded → Prop
  | whole {text : List Char} (h : encode text = bytes) : Sound start bytes ⟨text, none⟩
  | fault {text : List Char} {length : Option Nat} (h : encode text <+: bytes) :
      Sound start bytes ⟨text, some ⟨start + (encode text).length, length⟩⟩

/-- A character in front. -/
theorem Sound.cons {char : Char} (hchar : String.utf8EncodeChar char = bytes)
    (h : Sound (start + bytes.length) rest decoded) :
    Sound start (bytes ++ rest) (decoded.cons char) := by
  have hencode : ∀ text, encode (char :: text) = bytes ++ encode text := by
    intro text
    rw [encode, List.flatMap_cons, hchar, encode]
  cases h with
  | @whole text h => exact .whole (by rw [hencode, h])
  | @fault text length h =>
    have hindex : start + bytes.length + (encode text).length =
        start + (encode (char :: text)).length := by
      rw [hencode, List.length_append, Nat.add_assoc]
    rw [hindex]
    exact .fault (by rw [hencode]; exact (List.prefix_append_right_inj bytes).mpr h)

/-- Every run of the decoder is sound, also behind an open sequence. The induction is on the bytes
to come. -/
theorem sound_decodeFrom (bytes : List UInt8) :
    (∀ start, Sound start bytes (decodeFrom start none bytes)) ∧
      ∀ start opened pending, Opens opened pending →
        Sound start (opened ++ bytes)
          (decodeFrom (start + opened.length) (some pending) bytes) := by
  induction bytes with
  | nil =>
    refine ⟨fun start ↦ .whole rfl, fun start opened pending h ↦ ?_⟩
    rw [decodeFrom, Option.map_some, h.length_eq, Nat.add_sub_cancel]
    exact .fault List.nil_prefix
  | cons byte rest ih =>
    obtain ⟨ihNone, ihSome⟩ := ih
    refine ⟨fun start ↦ ?_, fun start opened pending h ↦ ?_⟩
    · rw [decodeFrom]
      cases hlead : lead byte with
      | whole char => exact (ihNone (start + 1)).cons (utf8EncodeChar_of_lead_whole hlead)
      | begins pending => exact ihSome start [byte] pending (.lead hlead)
      | bad => exact .fault List.nil_prefix
    · rw [decodeFrom]
      split_ifs with hrange
      · have hbounds := h.missing_bounds
        have hsplit : opened ++ byte :: rest = (opened ++ [byte]) ++ rest := by simp
        have hlength : start + opened.length + 1 = start + (opened ++ [byte]).length := by
          simp [Nat.add_assoc]
        rw [hsplit, hlength]
        rcases hmissing : pending.missing with _ | _ | missing
        · omega
        · exact (ihNone _).cons (h.utf8EncodeChar_eq hmissing hrange)
        · exact ihSome start _ _ (h.more hmissing hrange)
      · rw [h.length_eq, Nat.add_sub_cancel]
        exact .fault List.nil_prefix

/-- A text whose bytes stand in front of others, and no longer text's bytes do. -/
structure IsLongest (text : List Char) (bytes : List UInt8) : Prop where
  begins : encode text <+: bytes
  longest : ∀ other, encode other <+: bytes → (encode other).length ≤ (encode text).length

/-- Only one text is the longest. -/
theorem IsLongest.eq {text other : List Char} (h : IsLongest text bytes)
    (hother : IsLongest other bytes) : text = other := by
  have hlength := Nat.le_antisymm (hother.longest text h.begins) (h.longest other hother.begins)
  have hencode : encode text = encode other :=
    (List.prefix_of_prefix_length_le h.begins hother.begins (Nat.le_of_eq hlength)).eq_of_length
      hlength
  have hdecode := decode_encode text
  rw [hencode, decode_encode] at hdecode
  exact (Decoded.mk.inj hdecode).1.symm

theorem decodeFrom_encode_append (index : Nat) (text : List Char) (rest : List UInt8) :
    ∃ later fault, decodeFrom index none (encode text ++ rest) = ⟨text ++ later, fault⟩ := by
  induction text generalizing index with
  | nil => exact ⟨_, _, rfl⟩
  | cons char others ih =>
    obtain ⟨later, fault, hothers⟩ := ih (index + (String.utf8EncodeChar char).length)
    refine ⟨later, fault, ?_⟩
    rw [encode, List.flatMap_cons, List.append_assoc, decodeFrom_utf8EncodeChar, ← encode, hothers]
    rfl

/-- The decoder gives the longest text in front, and a fault exactly if the bytes are not a text.
The fault has the index behind the bytes of the text that it gives. -/
theorem decode_exact (bytes : List UInt8) :
    (∃ text, decode bytes = ⟨text, none⟩ ∧ encode text = bytes) ∨
      ∃ text length, decode bytes = ⟨text, some ⟨(encode text).length, length⟩⟩ ∧
        IsLongest text bytes ∧ ∀ other, encode other ≠ bytes := by
  have hsound := (sound_decodeFrom bytes).1 0
  rw [← decode] at hsound
  generalize hdecode : decode bytes = decoded at hsound
  cases hsound with
  | @whole text h => exact .inl ⟨text, rfl, h⟩
  | @fault text length h =>
    refine .inr ⟨text, length, by rw [Nat.zero_add], ⟨h, ?_⟩, ?_⟩
    · rintro other ⟨rest, rfl⟩
      obtain ⟨later, fault, hother⟩ := decodeFrom_encode_append 0 other rest
      rw [decode, hother] at hdecode
      have hlater : encode text = encode other ++ encode later := by
        rw [← (Decoded.mk.inj hdecode).1]
        exact List.flatMap_append
      rw [hlater, List.length_append]
      exact Nat.le_add_right _ _
    · rintro other rfl
      rw [decode_encode] at hdecode
      exact absurd (Decoded.mk.inj hdecode).2 (by simp)

/-! ### The mark of byte order -/

/-- Bytes and what is behind at most one mark of byte order in front of them. -/
inductive BehindMark : List UInt8 → List UInt8 → Prop
  /-- There is a mark. -/
  | marked (rest : List UInt8) : BehindMark (0xEF :: 0xBB :: 0xBF :: rest) rest
  /-- There is no mark. -/
  | unmarked {bytes : List UInt8} (h : ¬[0xEF, 0xBB, 0xBF] <+: bytes) : BehindMark bytes bytes

theorem behindMark_iff : BehindMark bytes rest ↔ dropMarkBytes bytes = rest := by
  constructor
  · intro h
    cases h with
    | marked => rfl
    | unmarked h =>
      unfold dropMarkBytes
      split
      · exact absurd (List.prefix_append [0xEF, 0xBB, 0xBF] _) h
      · rfl
  · rintro rfl
    unfold dropMarkBytes
    split
    · exact .marked _
    · next hnone =>
      refine .unmarked fun hmark ↦ ?_
      obtain ⟨others, rfl⟩ := hmark
      exact hnone others rfl

theorem existsUnique_behindMark (bytes : List UInt8) : ∃! rest, BehindMark bytes rest :=
  ⟨dropMarkBytes bytes, behindMark_iff.mpr rfl, fun _ h ↦ (behindMark_iff.mp h).symm⟩

end DialogueScript.Utf8
