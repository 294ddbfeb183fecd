import TemplateMarkup.Text.CharClass

/-!
# Lexemes of JSON text

JSON text is read in two steps, of which this is the first: brackets, commas, colons, words,
numbers and strings. Of a number only the form is checked. A string keeps its text; where its
escapes name half of a surrogate pair without the other half there is no such text, which is a
fault only where it is needed.
-/

namespace TemplateMarkup.Json

inductive Lexeme where
  | beginObject
  | endObject
  | beginArray
  | endArray
  | colon
  | comma
  | null
  | bool (b : Bool)
  | number
  | string (text : Option String)
deriving DecidableEq, Repr

/-! ## Numbers -/

/-- How much of a number has been read. -/
inductive NumberPart where
  | minus
  | zero
  | integer
  | point
  | fraction
  | exponent
  | exponentSign
  | exponentDigits
deriving DecidableEq, Repr

namespace NumberPart

/-- Whether the number may end here. -/
def complete : NumberPart → Bool
  | zero | integer | fraction | exponentDigits => true
  | minus | point | exponent | exponentSign => false

/-- The part of the number after one more character that belongs to it. A zero is never followed by
another digit of the integer. -/
def next? (part : NumberPart) (c : Char) : Option NumberPart :=
  match part with
  | minus => if c = '0' then some zero else if c.isDigit then some integer else none
  | zero => afterInteger
  | integer => if c.isDigit then some integer else afterInteger
  | point => if c.isDigit then some fraction else none
  | fraction => if c.isDigit then some fraction else afterFraction
  | exponent =>
    if c = '+' ∨ c = '-' then some exponentSign
    else if c.isDigit then some exponentDigits
    else none
  | exponentSign => if c.isDigit then some exponentDigits else none
  | exponentDigits => if c.isDigit then some exponentDigits else none
where
  afterFraction := if c = 'e' ∨ c = 'E' then some exponent else none
  afterInteger := if c = '.' then some point else afterFraction

end NumberPart

/-! ## Strings -/

/-- The text of a string as far as it has been read. -/
structure StringPart where
  /-- The characters, the last one first. -/
  text : List Char := []
  /-- The first half of a surrogate pair whose second half must follow. -/
  half : Option Nat := none
  /-- Whether every half so far has met its other half. -/
  whole : Bool := true
deriving DecidableEq, Repr

namespace StringPart

def push (s : StringPart) (c : Char) : StringPart :=
  ⟨c :: s.text, none, s.whole && s.half.isNone⟩

/-- Appends what the four digits of an escape name: a character, or half of one. -/
def pushUnit (s : StringPart) (unit : Nat) : StringPart :=
  if 0xD800 ≤ unit ∧ unit < 0xDC00 then
    { s with half := some unit, whole := s.whole && s.half.isNone }
  else if 0xDC00 ≤ unit ∧ unit < 0xE000 then
    match s.half with
    | none => { s with whole := false }
    | some half =>
      let c := Char.ofNat (0x10000 + (half - 0xD800) * 0x400 + (unit - 0xDC00))
      { s with text := c :: s.text, half := none }
  else s.push (Char.ofNat unit)

def text? (s : StringPart) : Option String :=
  if s.whole ∧ s.half.isNone then some (String.ofList s.text.reverse) else none

end StringPart

/-! ## Reading lexemes -/

/-- What the next character continues. -/
inductive LexMode where
  | between
  /-- A word of which `rest` must still follow. -/
  | word (rest : List Char) (lexeme : Lexeme)
  | number (part : NumberPart)
  | string (s : StringPart)
  /-- A string, after a backslash. -/
  | escape (s : StringPart)
  /-- A string, in an escape of which so many digits must still follow. -/
  | unicode (s : StringPart) (missing value : Nat)
deriving DecidableEq, Repr

namespace LexMode

/-- The lexeme that one character completes between two others, or the mode that it begins. -/
def start (c : Char) : Option (List Lexeme × LexMode) :=
  match c with
  | ' ' | '\t' | '\n' | '\r' => some ([], between)
  | '{' => some ([.beginObject], between)
  | '}' => some ([.endObject], between)
  | '[' => some ([.beginArray], between)
  | ']' => some ([.endArray], between)
  | ':' => some ([.colon], between)
  | ',' => some ([.comma], between)
  | '"' => some ([], string {})
  | 't' => some ([], word ['r', 'u', 'e'] (.bool true))
  | 'f' => some ([], word ['a', 'l', 's', 'e'] (.bool false))
  | 'n' => some ([], word ['u', 'l', 'l'] .null)
  | '-' => some ([], number .minus)
  | '0' => some ([], number .zero)
  | _ => if c.isDigit then some ([], number .integer) else none

/-- The character that a backslash and `c` stand for. -/
def escaped? (c : Char) : Option Char :=
  match c with
  | '"' | '\\' | '/' => some c
  | 'b' => some '\x08'
  | 'f' => some '\x0c'
  | 'n' => some '\n'
  | 'r' => some '\r'
  | 't' => some '\t'
  | _ => none

/-- The lexemes that one character completes, and what the next one continues. -/
def next? (mode : LexMode) (c : Char) : Option (List Lexeme × LexMode) :=
  match mode with
  | between => start c
  | word [] _ => none
  | word (d :: rest) lexeme =>
    if c ≠ d then none
    else if rest.isEmpty then some ([lexeme], between)
    else some ([], word rest lexeme)
  | number part =>
    match part.next? c with
    | some part => some ([], number part)
    | none => if part.complete then (start c).map fun (xs, m) => (.number :: xs, m) else none
  | string s =>
    if c = '"' then some ([.string s.text?], between)
    else if c = '\\' then some ([], escape s)
    else if c.toNat < 0x20 then none
    else some ([], string (s.push c))
  | escape s =>
    if c = 'u' then some ([], unicode s 4 0)
    else (escaped? c).map fun d => ([], string (s.push d))
  | unicode s missing value =>
    (digit? 16 c).map fun d =>
      let value := value * 16 + d
      if missing ≤ 1 then ([], string (s.pushUnit value)) else ([], unicode s (missing - 1) value)

/-- The lexemes that the end of the text completes. -/
def finish? : LexMode → Option (List Lexeme)
  | between => some []
  | number part => if part.complete then some [.number] else none
  | _ => none

end LexMode

/-- The lexemes of a text. -/
def lexemes? (text : String) : Option (List Lexeme) := do
  let (found, mode) ← text.toList.foldlM
    (fun (found, mode) c => (LexMode.next? mode c).map fun (xs, m) => (xs.reverse ++ found, m))
    ([], .between)
  return found.reverse ++ (← mode.finish?)

end TemplateMarkup.Json
