import TemplateMarkup.Source.Position
import TemplateMarkup.Text.CharClass

/-!
# Syntax errors

Markup of every shape is tolerated. Only inside an expression can a document be wrong, and in
three ways: each is a character that stands directly after a `}` or a closing quote and does not
belong there.
-/

namespace TemplateMarkup

/-- Where the character found stands. -/
inductive SyntaxError.Cause where
  /-- After a single `}`. -/
  | unpairedBrace (found : Char)
  /-- After the closing quote of an attribute name. -/
  | afterQuotedName (found : Char)
  /-- After the closing quote of an attribute value. -/
  | afterQuotedValue (found : Char)
deriving DecidableEq, Repr

namespace SyntaxError.Cause

def found : Cause → Char
  | unpairedBrace c => c
  | afterQuotedName c => c
  | afterQuotedValue c => c

def message (cause : Cause) : String :=
  let rule :=
    match cause with
    | unpairedBrace _ =>
      "expressions may only contain '\x7d' as the closing '\x7d\x7d', found '\x7d' followed by "
    | afterQuotedName _ =>
      "quoted expression attribute names must be followed by whitespace, '=' or '\x7d', found "
    | afterQuotedValue _ =>
      "quoted expression attribute values must be followed by whitespace or '\x7d', found "
  rule ++ Quoted.char cause.found

end SyntaxError.Cause

structure SyntaxError where
  cause : SyntaxError.Cause
  /-- The position after the character found. -/
  position : Position
  /-- The position of the two braces that opened the expression. -/
  expressionStart : Position
deriving DecidableEq, Repr

def SyntaxError.message (e : SyntaxError) : String :=
  s!"syntax error at line {e.position.line}, column {e.position.column}: " ++ e.cause.message

instance : ToString SyntaxError := ⟨SyntaxError.message⟩

end TemplateMarkup
