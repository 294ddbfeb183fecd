import TemplateMarkup.Token.Basic

/-!
# Growing a token

A token grows piece by piece while its text is read. Each edit suits some kinds of token, and on any
other kind it is a misuse. End tags and end expressions take the edits of their start forms and drop
what they have no place for: attributes and the self-closing mark.
-/

namespace TemplateMarkup

/-- An edit of a token of the wrong kind. -/
inductive Misuse where
  | textOfOther
  | tagNameOfOther
  | selfClosingOfOther
  | attributeOfOther
  | expressionNameOfOther
  | newExpressionAttributeOfOther
  | expressionAttributeOfOther
deriving DecidableEq, Repr

def Misuse.message : Misuse → String
  | .textOfOther => "append_to_text called on non-text token"
  | .tagNameOfOther => "append_to_tag_name called on non-tag token"
  | .selfClosingOfOther => "set_self_closing called on non-tag token"
  | .attributeOfOther => "push_attribute called on non-tag token"
  | .expressionNameOfOther => "append_to_expression_name called on non-expression token"
  | .newExpressionAttributeOfOther =>
    "start_new_expression_attribute called on non-expression token"
  | .expressionAttributeOfOther =>
    "current_expression_attribute_mut called on non-expression token"

instance : ToString Misuse := ⟨Misuse.message⟩

/-- Changes the last element, if there is one. -/
def modifyLast {α : Type} (f : α → α) (l : List α) : List α :=
  l.modify (l.length - 1) f

namespace TokenKind

/-! ## Text and comments -/

def appendText (k : TokenKind) (s : String) : Except Misuse TokenKind :=
  match k with
  | .chars text => .ok (.chars (text ++ s))
  | .comment text => .ok (.comment (text ++ s))
  | _ => .error .textOfOther

/-! ## Tags -/

def appendTagName (k : TokenKind) (c : Char) : Except Misuse TokenKind :=
  match k with
  | .startTag name attributes selfClosing => .ok (.startTag (name.push c) attributes selfClosing)
  | .endTag name => .ok (.endTag (name.push c))
  | _ => .error .tagNameOfOther

def markSelfClosing (k : TokenKind) : Except Misuse TokenKind :=
  match k with
  | .startTag name attributes _ => .ok (.startTag name attributes true)
  | .endTag name => .ok (.endTag name)
  | _ => .error .selfClosingOfOther

def pushAttribute (k : TokenKind) (a : Attribute) : Except Misuse TokenKind :=
  match k with
  | .startTag name attributes selfClosing => .ok (.startTag name (attributes ++ [a]) selfClosing)
  | .endTag name => .ok (.endTag name)
  | _ => .error .attributeOfOther

/-! ## Expressions -/

def appendExpressionName (k : TokenKind) (c : Char) : Except Misuse TokenKind :=
  match k with
  | .startExpression name attributes isBlock =>
    .ok (.startExpression (name.push c) attributes isBlock)
  | .endExpression name => .ok (.endExpression (name.push c))
  | _ => .error .expressionNameOfOther

/-- Opens an attribute with an empty name and no value. -/
def newExpressionAttribute (k : TokenKind) (nameIsLiteral : Bool) : Except Misuse TokenKind :=
  match k with
  | .startExpression name attributes isBlock =>
    .ok (.startExpression name (attributes ++ [⟨"", "", nameIsLiteral, none⟩]) isBlock)
  | .endExpression name => .ok (.endExpression name)
  | _ => .error .newExpressionAttributeOfOther

/-- The attribute that was opened last. An end expression has none. -/
def lastExpressionAttribute? (k : TokenKind) : Except Misuse (Option ExpressionAttribute) :=
  match k with
  | .startExpression _ attributes _ => .ok attributes.getLast?
  | .endExpression _ => .ok none
  | _ => .error .expressionAttributeOfOther

/-- Changes the attribute that was opened last, if there is one. -/
def modifyExpressionAttribute (k : TokenKind) (f : ExpressionAttribute → ExpressionAttribute) :
    Except Misuse TokenKind :=
  match k with
  | .startExpression name attributes isBlock =>
    .ok (.startExpression name (modifyLast f attributes) isBlock)
  | .endExpression name => .ok (.endExpression name)
  | _ => .error .expressionAttributeOfOther

end TokenKind

end TemplateMarkup
