import LispEditor.Text.Hex
import LispEditor.Text.Slice

/-!
# UTF-8

Texts are stored as UTF-8. Reading is strict: a byte that cannot stand where it does is an error,
which names the bytes that were taken for the beginning of a character.
-/

namespace LispEditor.Utf8

/-- What is wrong with some bytes. -/
inductive Reason where
  | invalidStart
  | invalidContinuation
  | unexpectedEnd
  deriving DecidableEq, Repr

/-- The wording of a reason. -/
def Reason.text : Reason → String
  | invalidStart => "invalid start byte"
  | invalidContinuation => "invalid continuation byte"
  | unexpectedEnd => "unexpected end of data"

/-- Where decoding fails: at `count` bytes from `position` on, of which `first` is the first. -/
structure DecodeError where
  position : Nat
  count : Nat
  first : Nat
  reason : Reason
  deriving DecidableEq, Repr

/-- The wording of an error. -/
def DecodeError.message (error : DecodeError) : String :=
  let place :=
    if error.count ≤ 1 then
      "byte 0x" ++ String.ofList (Text.hexDigits 2 error.first) ++ " in position "
        ++ error.position.repr
    else
      "bytes in position " ++ error.position.repr ++ "-"
        ++ (error.position + error.count - 1).repr
  "'utf-8' codec can't decode " ++ place ++ ": " ++ error.reason.text

/-! ### Decoding -/

/-- What is still to come of a character: `left` bytes, of which the next lies in `low .. high`.
`bits` are those of the bytes so far, the first of which, `first`, was at `position`. -/
structure Pending where
  position : Nat
  first : Nat
  left : Nat
  low : Nat
  high : Nat
  bits : Nat
  deriving DecidableEq, Repr

/-- What a first byte calls for. No encoding is longer than needed, none is of half a UTF-16
character, and none is beyond the last character. -/
def lead? (position b : Nat) : Option Pending :=
  if b < 0xC2 then none
  else if b < 0xE0 then some ⟨position, b, 1, 0x80, 0xBF, b - 0xC0⟩
  else if b = 0xE0 then some ⟨position, b, 2, 0xA0, 0xBF, 0⟩
  else if b = 0xED then some ⟨position, b, 2, 0x80, 0x9F, b - 0xE0⟩
  else if b < 0xF0 then some ⟨position, b, 2, 0x80, 0xBF, b - 0xE0⟩
  else if b = 0xF0 then some ⟨position, b, 3, 0x90, 0xBF, 0⟩
  else if b < 0xF4 then some ⟨position, b, 3, 0x80, 0xBF, b - 0xF0⟩
  else if b = 0xF4 then some ⟨position, b, 3, 0x80, 0x8F, b - 0xF0⟩
  else none

/-- Decodes bytes of which the first is at `position`, inside a character if one is pending. -/
def decodeFrom (position : Nat) : Option Pending → List UInt8 → Except DecodeError Text
  | none, [] => .ok []
  | some p, [] => .error ⟨p.position, position - p.position, p.first, .unexpectedEnd⟩
  | none, byte :: rest =>
      let b := byte.toNat
      if b < 0x80 then (decodeFrom (position + 1) none rest).map (Char.ofNat b :: ·)
      else
        match lead? position b with
        | some p => decodeFrom (position + 1) (some p) rest
        | none => .error ⟨position, 1, b, .invalidStart⟩
  | some p, byte :: rest =>
      let b := byte.toNat
      if p.low ≤ b ∧ b ≤ p.high then
        let bits := p.bits * 64 + (b - 0x80)
        if p.left ≤ 1 then (decodeFrom (position + 1) none rest).map (Char.ofNat bits :: ·)
        else
          decodeFrom (position + 1) (some ⟨p.position, p.first, p.left - 1, 0x80, 0xBF, bits⟩) rest
      else .error ⟨p.position, position - p.position, p.first, .invalidContinuation⟩

/-- Decodes bytes. -/
def decode (bytes : List UInt8) : Except DecodeError Text :=
  decodeFrom 0 none bytes

/-! ### Encoding -/

/-- The byte that carries the last six bits of a number behind the first byte of a character. -/
def continuation (n : Nat) : UInt8 :=
  UInt8.ofNat (0x80 + n % 64)

/-- The bytes of a character. -/
def encodeChar (c : Char) : List UInt8 :=
  let n := c.toNat
  if n < 0x80 then [UInt8.ofNat n]
  else if n < 0x800 then [UInt8.ofNat (0xC0 + n / 0x40), continuation n]
  else if n < 0x10000 then
    [UInt8.ofNat (0xE0 + n / 0x1000), continuation (n / 0x40), continuation n]
  else
    [UInt8.ofNat (0xF0 + n / 0x40000), continuation (n / 0x1000), continuation (n / 0x40),
     continuation n]

/-- The bytes of a text. -/
def encode (text : Text) : List UInt8 :=
  text.flatMap encodeChar

end LispEditor.Utf8
