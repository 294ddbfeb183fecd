import TemplateMarkup.Text.CharClass

/-!
# Numeric references

A reference such as `#233` or `#xE9` names a character by its code point. There is no bound on the
number of digits, but the number is worked out in 32 bits: where it does not fit it is no code point
anyway. A number that is no code point of a character, and zero, stand for the replacement character.
-/

namespace TemplateMarkup.Reference

/-! ## Numbers in 32 bits -/

/-- The product, if it fits. -/
def product? (m n : UInt32) : Option UInt32 :=
  if m.toNat * n.toNat < UInt32.size then some (m * n) else none

/-- The sum, if it fits. -/
def sum? (m n : UInt32) : Option UInt32 :=
  if m.toNat + n.toNat < UInt32.size then some (m + n) else none

/-- The number that digits write, if no product and no sum on the way is too great. The first digit
is the most significant. -/
def word? (base : Nat) (digits : List Char) : Option UInt32 :=
  digits.foldlM (fun n c => do
    let d ← digit? base c
    sum? (← product? n base.toUInt32) d.toUInt32) 0

/-! ## The character of a number -/

/-- The number that a string of digits writes. The greatest number of 32 bits stands for every
greater one. -/
def codePoint? (base : Nat) (digits : List Char) : Option UInt32 :=
  if digits.isEmpty ∨ digits.any (fun c => (digit? base c).isNone) then none
  else some ((word? base digits).getD 0xffffffff)

/-- The character with the code point `n`; the replacement character if there is none or `n` is
zero. -/
def characterOf (n : UInt32) : Char :=
  if h : n ≠ 0 ∧ n.isValidChar then ⟨n, h.2⟩ else '\ufffd'

/-- The character that the text after `#` names. -/
def numeric? : List Char → Option Char
  | [] => none
  | c :: digits =>
    if c = 'x' ∨ c = 'X' then (codePoint? 16 digits).map characterOf
    else (codePoint? 10 (c :: digits)).map characterOf

end TemplateMarkup.Reference
