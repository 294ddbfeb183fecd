import TemplateMarkup.Event

/-!
# Constructs

A construct is a complete group of events that reports one token: a text run, a comment, a tag or
an expression. A start and its end differ in the opening event only, so an end tag may be marked as
self-closing and an end expression may have attributes.
-/

namespace TemplateMarkup

namespace Construct

/-- The name or the value of an expression attribute. Only a quoted one may be empty. -/
structure Word where
  quoted : Bool
  chars : List Char
  chars_ne : quoted = false → chars ≠ []
deriving DecidableEq

/-- An attribute of a tag. The pieces of its value may be none. -/
structure TagAttribute where
  name : List Char
  name_ne : name ≠ []
  quoted : Bool
  pieces : List String
deriving DecidableEq

/-- An attribute of an expression, with or without a value. -/
structure ExpressionAttribute where
  name : Word
  value? : Option Word
deriving DecidableEq

def TagAttribute.events (a : TagAttribute) : List Event :=
  .beginAttribute :: a.name.map .appendAttributeName ++
    .beginAttributeValue a.quoted :: a.pieces.map .appendAttributeValue ++ [.finishAttributeValue]

/-- The events of a value that is there. -/
def Word.valueEvents (value : Word) : List Event :=
  .beginExpressionAttributeValue value.quoted :: value.chars.map .appendExpressionAttributeValue

def ExpressionAttribute.events (a : ExpressionAttribute) : List Event :=
  .beginExpressionAttribute a.name.quoted :: a.name.chars.map .appendExpressionAttributeName ++
    (a.value?.map Word.valueEvents).getD []

end Construct

inductive Construct where
  | text (pieces : List String) (pieces_ne : pieces ≠ []) (stop : Position)
  | comment (pieces : List String) (stop : Position)
  | tag (ending : Bool) (name : List Char) (name_ne : name ≠ [])
      (attributes : List Construct.TagAttribute) (selfClosing : Bool) (stop : Position)
  /-- An end expression is one for which nothing tells whether it is a block. -/
  | expression (isBlock? : Option Bool) (name : List Char) (name_ne : name ≠ [])
      (attributes : List Construct.ExpressionAttribute) (stop : Position)
deriving DecidableEq

namespace Construct

def openTag (ending : Bool) : Event :=
  if ending then .beginEndTag else .beginStartTag

def openExpression (isBlock? : Option Bool) : Event :=
  (isBlock?.map .beginStartExpression).getD .beginEndExpression

def events : Construct → List Event
  | text pieces _ stop => .beginChars :: pieces.map .appendChars ++ [.finishChars stop]
  | comment pieces stop => .beginComment :: pieces.map .appendComment ++ [.finishComment stop]
  | tag ending name _ attributes selfClosing stop =>
      openTag ending :: name.map .appendTagName ++ attributes.flatMap TagAttribute.events ++
        (if selfClosing then [.markSelfClosing] else []) ++ [.finishTag stop]
  | expression isBlock? name _ attributes stop =>
      openExpression isBlock? :: name.map .appendExpressionName ++
        attributes.flatMap ExpressionAttribute.events ++ [.finishExpression stop]

end Construct

end TemplateMarkup
