import PromptDraw.Text.Basic

/-!
Numerals of natural numbers in YAML: decimal ones without leading zeros, and
hexadecimal, octal and binary ones behind `0x`, `0o` and `0b`. A plus sign may
stand in front of each.
-/

namespace PromptDraw

namespace Yaml

namespace Numeral

/-- The value of a digit, where letters of either case follow the nine. -/
def digit? (c : Char) : Option Nat :=
  if '0' ≤ c ∧ c ≤ '9' then some (c.toNat - '0'.toNat)
  else if 'a' ≤ c ∧ c ≤ 'z' then some (c.toNat - 'a'.toNat + 10)
  else if 'A' ≤ c ∧ c ≤ 'Z' then some (c.toNat - 'A'.toNat + 10)
  else none

/-- Appends a digit to a number. -/
def push? (base : Nat) (value : Nat) (c : Char) : Option Nat := do
  let digit ← digit? c
  if digit < base then return value * base + digit else none

def ofDigits? (base : Nat) (digits : Text) : Option Nat :=
  if digits = [] then none else digits.foldlM (push? base) 0

/-- The value of a numeral behind its sign. -/
def unsigned? : Text → Option Nat
  | ['0'] => some 0
  | '0' :: 'x' :: digits => ofDigits? 16 digits
  | '0' :: 'o' :: digits => ofDigits? 8 digits
  | '0' :: 'b' :: digits => ofDigits? 2 digits
  | '0' :: _ => none
  | digits => ofDigits? 10 digits

def value? : Text → Option Nat
  | '+' :: s => unsigned? s
  | s => unsigned? s

end Numeral

end Yaml

end PromptDraw
