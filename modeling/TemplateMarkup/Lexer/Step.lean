import TemplateMarkup.Lexer.Text
import TemplateMarkup.Lexer.Tag
import TemplateMarkup.Lexer.Comment
import TemplateMarkup.Lexer.Expression

/-!
# The move of a state

`State.move` gives the move of every state. A move that takes no character leads from a state that
`restless` singles out to one that it does not, so that no two such moves follow each other.
-/

namespace TemplateMarkup.State

/-- The move at the position `here`, where `c` is the next character and `rest` follows it. -/
def move (resolve : Resolver) (s : State) (here : Position) (c : Char) (rest : List Char) : Move :=
  let after := here.next c
  match s with
  | beforeData => Move.beforeData c rest
  | data => Move.data resolve here c rest
  | possibleExpressionOpen => Move.possibleExpressionOpen here rest
  | tagOpen => Move.tagOpen c
  | tagName => Move.tagName after c
  | endTagOpen => Move.endTagOpen c
  | selfClosingStartTag => Move.selfClosingStartTag after c
  | beforeAttributeName => Move.beforeAttributeName after c
  | attributeName => Move.attributeName after c
  | afterAttributeName => Move.afterAttributeName after c
  | beforeAttributeValue => Move.beforeAttributeValue after c
  | attributeValueQuoted quote => Move.attributeValueQuoted resolve quote c rest
  | attributeValueUnquoted => Move.attributeValueUnquoted resolve after c rest
  | afterAttributeValueQuoted => Move.afterAttributeValueQuoted after c
  | markupDeclaration => Move.markupDeclaration c rest
  | commentStart => Move.commentStart after c
  | commentStartDash => Move.commentStartDash after c
  | comment => Move.comment c
  | commentEndDash => Move.commentEndDash c
  | commentEnd => Move.commentEnd after c
  | expressionOpen => Move.expressionOpen c
  | expressionOpenBlock => Move.expressionOpenBlock c
  | endExpressionOpen => Move.endExpressionOpen c
  | expressionName => Move.expressionName c
  | possibleExpressionEnd => Move.possibleExpressionEnd after c
  | beforeExpressionAttributeName => Move.beforeExpressionAttributeName c
  | expressionAttributeName => Move.expressionAttributeName c
  | expressionAttributeNameQuoted quote => Move.expressionAttributeNameQuoted quote c
  | afterExpressionAttributeNameQuoted => Move.afterExpressionAttributeNameQuoted c
  | beforeExpressionAttributeValue => Move.beforeExpressionAttributeValue c
  | expressionAttributeValue => Move.expressionAttributeValue c
  | expressionAttributeValueQuoted quote => Move.expressionAttributeValueQuoted quote c
  | afterExpressionAttributeValueQuoted => Move.afterExpressionAttributeValueQuoted c

/-- Whether the state may hand the character `c` on to another state. -/
def restless (s : State) (c : Char) : Bool :=
  match s with
  | beforeData => true
  | data => c == '{'
  | selfClosingStartTag => true
  | afterAttributeValueQuoted => true
  | _ => false

/-- A character is handed on at most once. -/
theorem restless_of_move_eq_reexamine {resolve : Resolver} {s next : State} {here : Position}
    {c : Char} {rest : List Char} {events : List Event}
    (h : s.move resolve here c rest = .reexamine next events) :
    s.restless c = true ∧ next.restless c = false := by
  -- in all but the four restless states every branch is a move of another shape
  cases s <;>
    simp only [move, Move.beforeData, Move.data, Move.possibleExpressionOpen, Move.tagOpen,
      Move.tagName, Move.endTagOpen, Move.selfClosingStartTag, Move.beforeAttributeName,
      Move.attributeName, Move.afterAttributeName, Move.beforeAttributeValue,
      Move.attributeValueQuoted, Move.attributeValueUnquoted, Move.afterAttributeValueQuoted,
      Move.markupDeclaration, Move.commentStart, Move.commentStartDash, Move.comment,
      Move.commentEndDash, Move.commentEnd, Move.expressionOpen, Move.expressionOpenBlock,
      Move.endExpressionOpen, Move.expressionName, Move.possibleExpressionEnd,
      Move.beforeExpressionAttributeName, Move.expressionAttributeName,
      Move.expressionAttributeNameQuoted, Move.afterExpressionAttributeNameQuoted,
      Move.beforeExpressionAttributeValue, Move.expressionAttributeValue,
      Move.expressionAttributeValueQuoted, Move.afterExpressionAttributeValueQuoted,
      Move.advance, Move.drop, Move.finishTag, Move.finishComment, Move.resumeComment] at h <;>
    (repeat' split at h) <;>
    simp_all [Move.reference_ne_reexamine] <;>
    (obtain ⟨rfl, -⟩ := h) <;>
    simp_all [restless]

end TemplateMarkup.State
