/-!
# States of the lexer

Exactly one state is active at a time. The three states inside quotes are indexed by the quote
that ends them, so there are thirty-six states in all. `State.name` gives each the name it has in
the log.
-/

namespace TemplateMarkup

/-- The two quotation marks. -/
inductive Quote where
  | double
  | single
deriving DecidableEq, Repr

def Quote.char : Quote → Char
  | double => '"'
  | single => '\''

inductive State where
  /-- Between two tokens, where a document begins. -/
  | beforeData
  /-- In a text run. -/
  | data
  /-- In a text run, on a `{` that may open an expression. -/
  | possibleExpressionOpen
  /-- After `<`. -/
  | tagOpen
  | tagName
  /-- After `</`. -/
  | endTagOpen
  /-- After a `/` in a tag. -/
  | selfClosingStartTag
  | beforeAttributeName
  | attributeName
  /-- In the white space after an attribute name. -/
  | afterAttributeName
  /-- After the `=` of an attribute. -/
  | beforeAttributeValue
  | attributeValueQuoted (quote : Quote)
  | attributeValueUnquoted
  /-- After the closing quote of an attribute value. -/
  | afterAttributeValueQuoted
  /-- After `<!`. -/
  | markupDeclaration
  /-- After `<!--`. -/
  | commentStart
  /-- After `<!---`. -/
  | commentStartDash
  | comment
  /-- After a `-` in a comment. -/
  | commentEndDash
  /-- After `--` in a comment. -/
  | commentEnd
  /-- After the two braces that open an expression. -/
  | expressionOpen
  /-- After the opening braces and a `#`. -/
  | expressionOpenBlock
  /-- After the opening braces and a `/`. -/
  | endExpressionOpen
  | expressionName
  /-- After a `}` in an expression. -/
  | possibleExpressionEnd
  | beforeExpressionAttributeName
  | expressionAttributeName
  | expressionAttributeNameQuoted (quote : Quote)
  /-- After the closing quote of an expression attribute. -/
  | afterExpressionAttributeNameQuoted
  /-- After the `=` of an expression attribute. -/
  | beforeExpressionAttributeValue
  | expressionAttributeValue
  | expressionAttributeValueQuoted (quote : Quote)
  /-- After the closing quote of an expression attribute value. -/
  | afterExpressionAttributeValueQuoted
deriving DecidableEq, Repr

namespace State

/-- Every state, in the order of the constructs of a document. -/
def all : List State := [
  beforeData, data, possibleExpressionOpen,
  tagOpen, tagName, endTagOpen, selfClosingStartTag,
  beforeAttributeName, attributeName, afterAttributeName, beforeAttributeValue,
  attributeValueQuoted .double, attributeValueQuoted .single, attributeValueUnquoted,
  afterAttributeValueQuoted,
  markupDeclaration, commentStart, commentStartDash, comment, commentEndDash, commentEnd,
  expressionOpen, expressionOpenBlock, endExpressionOpen, expressionName, possibleExpressionEnd,
  beforeExpressionAttributeName, expressionAttributeName,
  expressionAttributeNameQuoted .double, expressionAttributeNameQuoted .single,
  afterExpressionAttributeNameQuoted, beforeExpressionAttributeValue, expressionAttributeValue,
  expressionAttributeValueQuoted .double, expressionAttributeValueQuoted .single,
  afterExpressionAttributeValueQuoted]

theorem mem_all (s : State) : s ∈ all := by
  cases s with
  | attributeValueQuoted q => cases q <;> decide
  | expressionAttributeNameQuoted q => cases q <;> decide
  | expressionAttributeValueQuoted q => cases q <;> decide
  | _ => decide

def name : State → String
  | beforeData => "before-data"
  | data => "data"
  | possibleExpressionOpen => "possible-expression-open"
  | tagOpen => "tag-open"
  | tagName => "tag-name"
  | endTagOpen => "end-tag-open"
  | selfClosingStartTag => "self-closing-start-tag"
  | beforeAttributeName => "before-attribute-name"
  | attributeName => "attribute-name"
  | afterAttributeName => "after-attribute-name"
  | beforeAttributeValue => "before-attribute-value"
  | attributeValueQuoted .double => "attribute-value-double-quoted"
  | attributeValueQuoted .single => "attribute-value-single-quoted"
  | attributeValueUnquoted => "attribute-value-unquoted"
  | afterAttributeValueQuoted => "after-attribute-value-quoted"
  | markupDeclaration => "markup-declaration"
  | commentStart => "comment-start"
  | commentStartDash => "comment-start-dash"
  | comment => "comment"
  | commentEndDash => "comment-end-dash"
  | commentEnd => "comment-end"
  | expressionOpen => "expression-open"
  | expressionOpenBlock => "expression-open-block"
  | endExpressionOpen => "end-expression-open"
  | expressionName => "expression-name"
  | possibleExpressionEnd => "possible-expression-end"
  | beforeExpressionAttributeName => "before-expression-attribute-name"
  | expressionAttributeName => "expression-attribute-name"
  | expressionAttributeNameQuoted .double => "expression-attribute-name-double-quoted"
  | expressionAttributeNameQuoted .single => "expression-attribute-name-single-quoted"
  | afterExpressionAttributeNameQuoted => "after-expression-attribute-name-quoted"
  | beforeExpressionAttributeValue => "before-expression-attribute-value"
  | expressionAttributeValue => "expression-attribute-value"
  | expressionAttributeValueQuoted .double => "expression-attribute-value-double-quoted"
  | expressionAttributeValueQuoted .single => "expression-attribute-value-single-quoted"
  | afterExpressionAttributeValueQuoted => "after-expression-attribute-value-quoted"

instance : ToString State := ⟨name⟩

end State

end TemplateMarkup
