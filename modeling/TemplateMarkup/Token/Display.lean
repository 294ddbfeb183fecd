import TemplateMarkup.Token.Basic
import TemplateMarkup.Text.CharClass

/-!
# Tokens on a line

The one-line form of a token. Text is shown in quotes; everything else is shown as markup again,
in one standard layout. A token that knows its place shows it behind an `@`.
-/

namespace TemplateMarkup

/-- A value in double quotes, a bare value, or no value at all where the bare value is empty. -/
def Attribute.display (a : Attribute) : String :=
  if a.quoted then a.name ++ "=\"" ++ a.value ++ "\""
  else if a.value.isEmpty then a.name
  else a.name ++ "=" ++ a.value

def ExpressionAttribute.display (a : ExpressionAttribute) : String :=
  let name := if a.nameIsLiteral then "\"" ++ a.name ++ "\"" else a.name
  match a.valueIsLiteral with
  | some true => name ++ "=\"" ++ a.value ++ "\""
  | some false => name ++ "=" ++ a.value
  | none => name

namespace TokenKind

def display : TokenKind → String
  | chars text => "Chars(" ++ Quoted.string text ++ ")"
  | comment text => "<!--" ++ text ++ "-->"
  | startTag name attributes selfClosing =>
    "<" ++ name ++ String.join (attributes.map (" " ++ ·.display))
      ++ (if selfClosing then " />" else ">")
  | endTag name => "</" ++ name ++ ">"
  | startExpression name attributes isBlock =>
    "\x7b\x7b" ++ (if isBlock then "#" else "") ++ name
      ++ String.join (attributes.map (" " ++ ·.display)) ++ "\x7d\x7d"
  | endExpression name => "\x7b\x7b/" ++ name ++ "\x7d\x7d"

instance : ToString TokenKind := ⟨display⟩

end TokenKind

def Token.display (t : Token) : String :=
  match t.span with
  | none => t.kind.display
  | some span => t.kind.display ++ " @ " ++ toString span

instance : ToString Token := ⟨Token.display⟩

end TemplateMarkup
