import TemplateMarkup.Json.Basic
import TemplateMarkup.Token.Basic

/-!
# Tokens as JSON

A token is an object whose `type` says its kind. The members of the kind follow, and then `loc` if
the token knows its place.
-/

namespace TemplateMarkup

def Position.toJson (p : Position) : Json :=
  .object [("line", .number p.line), ("column", .number p.column)]

def Span.toJson (s : Span) : Json :=
  .object [("start", s.start.toJson), ("end", s.stop.toJson)]

def ExpressionAttribute.toJson (a : ExpressionAttribute) : Json :=
  .object [
    ("name", .string a.name),
    ("value", .string a.value),
    ("name_is_literal", .bool a.nameIsLiteral),
    ("value_is_literal", (a.valueIsLiteral.map Json.bool).getD .null)]

def EmbeddedExpression.toJson (e : EmbeddedExpression) : Json :=
  .object [
    ("name", .string e.name),
    ("attributes", .array (e.attributes.map (·.toJson)))]

def Attribute.toJson (a : Attribute) : Json :=
  .object [
    ("name", .string a.name),
    ("values", .array (a.values.map Json.string)),
    ("embedded_expressions", .array (a.embeddedExpressions.map (·.toJson))),
    ("quoted", .bool a.quoted)]

/-- The members that tell the kind and its content. -/
def TokenKind.members : TokenKind → List (String × Json)
  | chars text => [("type", .string "Chars"), ("text", .string text)]
  | comment text => [("type", .string "Comment"), ("text", .string text)]
  | startTag name attributes selfClosing => [
      ("type", .string "StartTag"),
      ("name", .string name),
      ("attributes", .array (attributes.map (·.toJson))),
      ("self_closing", .bool selfClosing)]
  | endTag name => [("type", .string "EndTag"), ("name", .string name)]
  | startExpression name attributes isBlock => [
      ("type", .string "StartExpression"),
      ("name", .string name),
      ("attributes", .array (attributes.map (·.toJson))),
      ("is_block", .bool isBlock)]
  | endExpression name => [("type", .string "EndExpression"), ("name", .string name)]

def TokenKind.toJson (k : TokenKind) : Json :=
  .object k.members

def Token.toJson (t : Token) : Json :=
  .object (t.kind.members ++ (t.span.map fun s => ("loc", s.toJson)).toList)

/-- The tokens of a document as the text of a JSON list. -/
def Token.renderList (tokens : List Token) : String :=
  (Json.array (tokens.map (·.toJson))).render

end TemplateMarkup
