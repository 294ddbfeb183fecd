import TemplateMarkup.Source.Position

/-!
# Tokens

The six kinds of token a document is made of. Only start tags and start expressions carry
attributes. A tag attribute holds its value in fragments, between which expressions may stand; the
value as a text is the fragments joined.
-/

namespace TemplateMarkup

/-- An attribute of an expression: a word or a quoted literal, with or without a value. -/
structure ExpressionAttribute where
  name : String
  /-- Empty if there is no value. -/
  value : String
  nameIsLiteral : Bool
  /-- Whether the value was quoted; `none` if there is no value. -/
  valueIsLiteral : Option Bool
deriving DecidableEq, Repr

/-- An expression inside the value of a tag attribute. -/
structure EmbeddedExpression where
  name : String
  attributes : List ExpressionAttribute
deriving DecidableEq, Repr

/-- An attribute of a start tag. -/
structure Attribute where
  name : String
  /-- The fragments of the value. -/
  values : List String
  embeddedExpressions : List EmbeddedExpression
  /-- Whether the value was quoted. -/
  quoted : Bool
deriving DecidableEq, Repr

/-- The fragments joined. -/
def Attribute.value (a : Attribute) : String :=
  String.join a.values

inductive TokenKind where
  /-- A run of text, with its character references decoded. -/
  | chars (text : String)
  | comment (text : String)
  | startTag (name : String) (attributes : List Attribute) (selfClosing : Bool)
  | endTag (name : String)
  | startExpression (name : String) (attributes : List ExpressionAttribute) (isBlock : Bool)
  | endExpression (name : String)
deriving DecidableEq, Repr

/-- A token and, if locations are tracked, the part of the document it covers. -/
structure Token where
  kind : TokenKind
  span : Option Span
deriving DecidableEq, Repr

end TemplateMarkup
