import TemplateMarkup.Lexer.Move
import TemplateMarkup.Text.CharClass

/-!
# Moves in expressions

An expression ends at two closing braces in a row. From its name on, one closing brace outside quotes
must be followed by the other, unless it begins a value, and a closing quote by white space or whatever
may follow it: the three rejections are here and nowhere else. In front of the name a closing brace is
dropped like everything else that cannot begin one.
-/

namespace TemplateMarkup.Move

/-! ## Opening and closing -/

def expressionOpen (c : Char) : Move :=
  if c = '!' then drop .expressionOpen .commentExpression
  else if c = '/' then advance .endExpressionOpen []
  else if c = '#' then advance .expressionOpenBlock []
  else if c.isAlpha then
    advance .expressionName [.beginStartExpression false, .appendExpressionName c.toLower]
  else drop .expressionOpen (.droppedAfter .expression c)

def expressionOpenBlock (c : Char) : Move :=
  if c.isAlpha then
    advance .expressionName [.beginStartExpression true, .appendExpressionName c.toLower]
  else drop .expressionOpenBlock (.droppedAfter .block c)

def endExpressionOpen (c : Char) : Move :=
  if c.isAlpha then
    advance .expressionName [.beginEndExpression, .appendExpressionName c.toLower]
  else drop .endExpressionOpen (.droppedAfter .endExpression c)

def expressionName (c : Char) : Move :=
  if isSpace c then advance .beforeExpressionAttributeName []
  else if c = '}' then advance .possibleExpressionEnd []
  else advance .expressionName [.appendExpressionName c]

def possibleExpressionEnd (after : Position) (c : Char) : Move :=
  if c = '}' then advance .beforeData [.finishExpression after]
  else .reject (.unpairedBrace c)

/-! ## Attributes -/

def beforeExpressionAttributeName (c : Char) : Move :=
  if isSpace c then advance .beforeExpressionAttributeName []
  else if c = '}' then advance .possibleExpressionEnd []
  else if c = '"' then
    advance (.expressionAttributeNameQuoted .double) [.beginExpressionAttribute true]
  else if c = '\'' then
    advance (.expressionAttributeNameQuoted .single) [.beginExpressionAttribute true]
  else
    advance .expressionAttributeName
      [.beginExpressionAttribute false, .appendExpressionAttributeName c]

def expressionAttributeName (c : Char) : Move :=
  if isSpace c then advance .beforeExpressionAttributeName []
  else if c = '=' then advance .beforeExpressionAttributeValue []
  else if c = '}' then advance .possibleExpressionEnd []
  else advance .expressionAttributeName [.appendExpressionAttributeName c]

def expressionAttributeNameQuoted (quote : Quote) (c : Char) : Move :=
  if c = quote.char then advance .afterExpressionAttributeNameQuoted []
  else advance (.expressionAttributeNameQuoted quote) [.appendExpressionAttributeName c]

def afterExpressionAttributeNameQuoted (c : Char) : Move :=
  if isSpace c then advance .beforeExpressionAttributeName []
  else if c = '=' then advance .beforeExpressionAttributeValue []
  else if c = '}' then advance .possibleExpressionEnd []
  else .reject (.afterQuotedName c)

/-- The value has begun once it is not white space, be it a `}`. -/
def beforeExpressionAttributeValue (c : Char) : Move :=
  if isSpace c then advance .beforeExpressionAttributeValue []
  else if c = '"' then
    advance (.expressionAttributeValueQuoted .double) [.beginExpressionAttributeValue true]
  else if c = '\'' then
    advance (.expressionAttributeValueQuoted .single) [.beginExpressionAttributeValue true]
  else
    advance .expressionAttributeValue
      [.beginExpressionAttributeValue false, .appendExpressionAttributeValue c]

def expressionAttributeValue (c : Char) : Move :=
  if isSpace c then advance .beforeExpressionAttributeName []
  else if c = '}' then advance .possibleExpressionEnd []
  else advance .expressionAttributeValue [.appendExpressionAttributeValue c]

def expressionAttributeValueQuoted (quote : Quote) (c : Char) : Move :=
  if c = quote.char then advance .afterExpressionAttributeValueQuoted []
  else advance (.expressionAttributeValueQuoted quote) [.appendExpressionAttributeValue c]

def afterExpressionAttributeValueQuoted (c : Char) : Move :=
  if isSpace c then advance .beforeExpressionAttributeName []
  else if c = '}' then advance .possibleExpressionEnd []
  else .reject (.afterQuotedValue c)

end TemplateMarkup.Move
