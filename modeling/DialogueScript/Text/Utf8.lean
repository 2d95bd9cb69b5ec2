import DialogueScript.Text.Decimal

/-!
# Decoding UTF-8

`Utf8.decode` reads bytes as UTF-8. It gives the characters of the longest part in front that is
well formed and, where the bytes do not end there, the `Fault` behind it: the index of the first
byte of the ill-formed sequence, and the number of its bytes that could still have begun a
character, at least one. Where the bytes end before it is decided whether a sequence is well
formed, the fault has no such number.

A sequence is well formed if it is the shortest form of a scalar value. This comes down to the range
of its second byte, which depends on the first (`Lead`); every other byte behind the first lies
between `80` and `BF`.
-/

set_option autoImplicit false
set_option relaxedAutoImplicit false

namespace DialogueScript.Utf8

/-- Where bytes stop being UTF-8. -/
structure Fault where
  index : Nat
  /-- The length of the ill-formed sequence, unless the bytes end within it. -/
  length : Option Nat
deriving DecidableEq, Repr

/-- The wording of a fault. -/
def Fault.message (fault : Fault) : String :=
  match fault.length with
  | some n =>
    "invalid utf-8 sequence of " ++ Decimal.ofNat n ++ " bytes from index " ++
      Decimal.ofNat fault.index
  | none => "incomplete utf-8 byte sequence from index " ++ Decimal.ofNat fault.index

/-- A sequence of which some bytes are read: their bits, their number, the number of bytes to come
and the range of the next one. -/
structure Pending where
  bits : Nat
  read : Nat
  missing : Nat
  low : UInt8
  high : UInt8
deriving DecidableEq, Repr

/-- What the first byte of a sequence says. -/
inductive Lead where
  /-- The byte is a character. -/
  | whole (c : Char)
  /-- More bytes follow. -/
  | begins (pending : Pending)
  /-- No character begins with the byte. -/
  | bad
deriving DecidableEq, Repr

/-- Reads the first byte of a sequence. -/
def lead (byte : UInt8) : Lead :=
  let n := byte.toNat
  if n < 0x80 then .whole (Char.ofNat n)
  else if 0xC2 ≤ n ∧ n ≤ 0xDF then .begins ⟨n - 0xC0, 1, 1, 0x80, 0xBF⟩
  else if n = 0xE0 then .begins ⟨0, 1, 2, 0xA0, 0xBF⟩
  else if n = 0xED then .begins ⟨0xD, 1, 2, 0x80, 0x9F⟩
  else if 0xE1 ≤ n ∧ n ≤ 0xEF then .begins ⟨n - 0xE0, 1, 2, 0x80, 0xBF⟩
  else if n = 0xF0 then .begins ⟨0, 1, 3, 0x90, 0xBF⟩
  else if 0xF1 ≤ n ∧ n ≤ 0xF3 then .begins ⟨n - 0xF0, 1, 3, 0x80, 0xBF⟩
  else if n = 0xF4 then .begins ⟨4, 1, 3, 0x80, 0x8F⟩
  else .bad

/-- What bytes decode to. -/
structure Decoded where
  text : List Char
  fault : Option Fault
deriving DecidableEq, Repr

/-- A character in front of what is decoded. -/
def Decoded.cons (c : Char) (decoded : Decoded) : Decoded :=
  ⟨c :: decoded.text, decoded.fault⟩

/-- Decodes bytes of which the first has an index, behind an open sequence if there is one. -/
def decodeFrom (index : Nat) (pending : Option Pending) : List UInt8 → Decoded
  | [] => ⟨[], pending.map fun p => ⟨index - p.read, none⟩⟩
  | byte :: rest =>
    match pending with
    | none =>
      match lead byte with
      | .whole c => (decodeFrom (index + 1) none rest).cons c
      | .begins p => decodeFrom (index + 1) (some p) rest
      | .bad => ⟨[], some ⟨index, some 1⟩⟩
    | some p =>
      if p.low ≤ byte ∧ byte ≤ p.high then
        let bits := p.bits * 64 + (byte.toNat - 0x80)
        match p.missing with
        | 0 | 1 => (decodeFrom (index + 1) none rest).cons (Char.ofNat bits)
        | missing + 1 =>
          decodeFrom (index + 1) (some ⟨bits, p.read + 1, missing, 0x80, 0xBF⟩) rest
      else ⟨[], some ⟨index - p.read, some p.read⟩⟩

/-- Decodes bytes. -/
def decode (bytes : List UInt8) : Decoded :=
  decodeFrom 0 none bytes

/-- The bytes of a text. -/
def encode (text : List Char) : List UInt8 :=
  text.flatMap String.utf8EncodeChar

/-- The mark of byte order, which some programs put in front of a text. -/
def byteOrderMark : Char := '\ufeff'

/-- A text without one mark of byte order at its beginning. -/
def dropMark : List Char → List Char
  | [] => []
  | c :: rest => if c = byteOrderMark then rest else c :: rest

/-- Bytes without one mark of byte order at their beginning. -/
def dropMarkBytes : List UInt8 → List UInt8
  | 0xEF :: 0xBB :: 0xBF :: rest => rest
  | bytes => bytes

end DialogueScript.Utf8
