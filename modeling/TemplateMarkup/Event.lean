import TemplateMarkup.Source.Position

/-!
# Lexical events

What the lexer reports while it reads. A token is reported by an opening event, the pieces of its
text in order, and a closing event that carries the position after its last character. The pieces
of a text run and of an attribute value are strings, since one reference may stand for several
characters or for none; names and expression values come character by character.
-/

namespace TemplateMarkup

inductive Event where
  /-- The lexer was reset: whatever is unfinished is void. -/
  | reset
  | beginChars
  | appendChars (text : String)
  | finishChars (stop : Position)
  | beginComment
  | appendComment (text : String)
  | finishComment (stop : Position)
  | beginStartTag
  | beginEndTag
  | appendTagName (c : Char)
  | beginAttribute
  | appendAttributeName (c : Char)
  | beginAttributeValue (quoted : Bool)
  | appendAttributeValue (text : String)
  | finishAttributeValue
  | markSelfClosing
  | finishTag (stop : Position)
  | beginStartExpression (isBlock : Bool)
  | beginEndExpression
  | appendExpressionName (c : Char)
  | beginExpressionAttribute (nameIsLiteral : Bool)
  | appendExpressionAttributeName (c : Char)
  /-- The current attribute has a value, which follows. -/
  | beginExpressionAttributeValue (valueIsLiteral : Bool)
  | appendExpressionAttributeValue (c : Char)
  | finishExpression (stop : Position)
deriving DecidableEq, Repr

end TemplateMarkup
