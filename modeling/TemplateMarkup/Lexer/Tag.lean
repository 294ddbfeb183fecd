import TemplateMarkup.Lexer.Text
import TemplateMarkup.Text.CharClass

/-!
# Moves in tags

Start tags and end tags share every state after the name. An attribute is closed where the next
one begins, at a `/`, or at the `>` of the tag; one without a value counts as having an empty,
unquoted one. `after` is the position after the character at hand, which is where a tag that ends
here ends.
-/

namespace TemplateMarkup.Move

/-- The events of an attribute value that is not there. -/
def noValue : List Event :=
  [.beginAttributeValue false, .finishAttributeValue]

/-- Takes the `>` that ends a tag. -/
def finishTag (events : List Event) (after : Position) : Move :=
  advance .beforeData (events ++ [.finishTag after])

/-! ## Opening -/

def tagOpen (c : Char) : Move :=
  if c = '!' then advance .markupDeclaration []
  else if c = '/' then advance .endTagOpen []
  else if c.isAlpha then advance .tagName [.beginStartTag, .appendTagName c.toLower]
  else drop .tagOpen (.droppedAfter .tag c)

def endTagOpen (c : Char) : Move :=
  if c.isAlpha then advance .tagName [.beginEndTag, .appendTagName c.toLower]
  else drop .endTagOpen (.droppedAfter .endTag c)

def tagName (after : Position) (c : Char) : Move :=
  if isSpace c then advance .beforeAttributeName []
  else if c = '/' then advance .selfClosingStartTag []
  else if c = '>' then finishTag [] after
  else advance .tagName [.appendTagName c]

/-- A `/` that no `>` follows only parts attributes. -/
def selfClosingStartTag (after : Position) (c : Char) : Move :=
  if c = '>' then finishTag [.markSelfClosing] after
  else .reexamine .beforeAttributeName []

/-! ## Attribute names -/

def beforeAttributeName (after : Position) (c : Char) : Move :=
  if isSpace c then advance .beforeAttributeName []
  else if c = '/' then advance .selfClosingStartTag []
  else if c = '>' then finishTag [] after
  else advance .attributeName [.beginAttribute, .appendAttributeName c]

def attributeName (after : Position) (c : Char) : Move :=
  if isSpace c then advance .afterAttributeName []
  else if c = '/' then advance .selfClosingStartTag noValue
  else if c = '=' then advance .beforeAttributeValue []
  else if c = '>' then finishTag noValue after
  else advance .attributeName [.appendAttributeName c]

def afterAttributeName (after : Position) (c : Char) : Move :=
  if isSpace c then advance .afterAttributeName []
  else if c = '/' then advance .selfClosingStartTag noValue
  else if c = '=' then advance .beforeAttributeValue []
  else if c = '>' then finishTag noValue after
  else advance .attributeName (noValue ++ [.beginAttribute, .appendAttributeName c])

/-! ## Attribute values -/

def beforeAttributeValue (after : Position) (c : Char) : Move :=
  if isSpace c then advance .beforeAttributeValue []
  else if c = '"' then advance (.attributeValueQuoted .double) [.beginAttributeValue true]
  else if c = '\'' then advance (.attributeValueQuoted .single) [.beginAttributeValue true]
  else if c = '>' then finishTag noValue after
  else
    advance .attributeValueUnquoted
      [.beginAttributeValue false, .appendAttributeValue (String.singleton c)]

def attributeValueQuoted (resolve : Resolver) (quote : Quote) (c : Char) (rest : List Char) :
    Move :=
  if c = quote.char then advance .afterAttributeValueQuoted [.finishAttributeValue]
  else if c = '&' then
    reference resolve (.attributeValueQuoted quote) .appendAttributeValue rest
  else advance (.attributeValueQuoted quote) [.appendAttributeValue (String.singleton c)]

def attributeValueUnquoted (resolve : Resolver) (after : Position) (c : Char)
    (rest : List Char) : Move :=
  if isSpace c then advance .beforeAttributeName [.finishAttributeValue]
  else if c = '&' then reference resolve .attributeValueUnquoted .appendAttributeValue rest
  else if c = '>' then finishTag [.finishAttributeValue] after
  else advance .attributeValueUnquoted [.appendAttributeValue (String.singleton c)]

/-- The next attribute may follow a closing quote without white space. -/
def afterAttributeValueQuoted (after : Position) (c : Char) : Move :=
  if isSpace c then advance .beforeAttributeName []
  else if c = '/' then advance .selfClosingStartTag []
  else if c = '>' then finishTag [] after
  else .reexamine .beforeAttributeName []

end TemplateMarkup.Move
