/-!
Decoding bytes as UTF-8. Where the bytes are not UTF-8 the fault says how long
their longest valid beginning is, and whether the byte sequence after it is
already impossible or merely cut short by the end of the input.
-/

namespace PromptDraw

inductive Utf8Fault where
  /-- The `width` bytes after the first `validTo` begin no character. -/
  | invalid (width validTo : Nat)
  /-- The input ends inside the character after the first `validTo` bytes. -/
  | incomplete (validTo : Nat)
deriving DecidableEq, Repr

namespace Utf8Fault

def message : Utf8Fault → String
  | invalid width validTo =>
    "invalid utf-8 sequence of " ++ toString width ++ " bytes from index " ++ toString validTo
  | incomplete validTo =>
    "incomplete utf-8 byte sequence from index " ++ toString validTo

end Utf8Fault

namespace Utf8

/-- The second byte of a character lies in a range that its first byte fixes.
The third and fourth lie in `0x80` to `0xBF`. -/
structure Lead where
  low : UInt8
  high : UInt8
  more : Nat

/-- What the first byte of a character of two or more bytes announces. -/
def lead? (b : UInt8) : Option Lead :=
  if 0xC2 ≤ b ∧ b ≤ 0xDF then some ⟨0x80, 0xBF, 0⟩
  else if b = 0xE0 then some ⟨0xA0, 0xBF, 1⟩
  else if b = 0xED then some ⟨0x80, 0x9F, 1⟩
  else if 0xE1 ≤ b ∧ b ≤ 0xEF then some ⟨0x80, 0xBF, 1⟩
  else if b = 0xF0 then some ⟨0x90, 0xBF, 2⟩
  else if 0xF1 ≤ b ∧ b ≤ 0xF3 then some ⟨0x80, 0xBF, 2⟩
  else if b = 0xF4 then some ⟨0x80, 0x8F, 2⟩
  else none

/-- Checks `more` further bytes of a character of which `width` bytes are read,
and gives the fault or the bytes after the character. -/
def readMore (validTo width : Nat) : (more : Nat) → List UInt8 → Except Utf8Fault (List UInt8)
  | 0, bytes => .ok bytes
  | _ + 1, [] => .error (.incomplete validTo)
  | more + 1, b :: bytes =>
    if 0x80 ≤ b ∧ b ≤ 0xBF then readMore validTo (width + 1) more bytes
    else .error (.invalid width validTo)

/-- The first fault of some bytes, of which `validTo` are already passed. -/
def fault? (fuel validTo : Nat) (bytes : List UInt8) : Option Utf8Fault :=
  match fuel, bytes with
  | 0, _ | _, [] => none
  | fuel + 1, b :: bytes =>
    if b < 0x80 then fault? fuel (validTo + 1) bytes
    else match lead? b, bytes with
      | none, _ => some (.invalid 1 validTo)
      | some _, [] => some (.incomplete validTo)
      | some lead, c :: bytes =>
        if lead.low ≤ c ∧ c ≤ lead.high then
          match readMore validTo 2 lead.more bytes with
          | .error fault => some fault
          | .ok bytes => fault? fuel (validTo + 2 + lead.more) bytes
        else some (.invalid 1 validTo)

/-- Decodes bytes that are UTF-8 and names the first fault of all others. -/
def decode (bytes : ByteArray) : Except Utf8Fault String :=
  match String.fromUTF8? bytes with
  | some text => .ok text
  | none => .error ((fault? bytes.size 0 bytes.toList).getD (.incomplete bytes.size))

end Utf8

end PromptDraw
