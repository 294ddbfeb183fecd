import TemplateMarkup.Event
import TemplateMarkup.Token.Edit

/-!
# Assembling tokens

The assembler turns events into tokens. It holds the token under construction, the tag attribute
under construction, and the tokens that are complete and not yet taken. A token covers the
document from the end of the one before it, so whatever is dropped between two tokens belongs to
the second.

An event that finds nothing to act on is ignored; one that finds a token of the wrong kind is a
misuse.
-/

namespace TemplateMarkup

/-- A tag attribute whose value has not been closed. -/
structure OpenAttribute where
  name : String := ""
  values : List String := []
  quoted : Bool := false
deriving DecidableEq, Repr

/-- The attribute as a token carries it. -/
def OpenAttribute.close (a : OpenAttribute) : Attribute :=
  ⟨a.name, a.values, [], a.quoted⟩

structure Assembler where
  /-- Whether tokens carry the part of the document they cover. -/
  trackLocations : Bool := false
  /-- The complete tokens that have not been taken. -/
  tokens : Array Token := #[]
  current : Option TokenKind := none
  pending : Option OpenAttribute := none
  /-- Where the next token starts. -/
  tokenStart : Position := .start
deriving DecidableEq, Repr

namespace Assembler

/-- Drops everything but the choice about locations. -/
def reset (a : Assembler) : Assembler :=
  { trackLocations := a.trackLocations }

/-- The complete tokens, and the assembler without them. -/
def takeTokens (a : Assembler) : List Token × Assembler :=
  (a.tokens.toList, { a with tokens := #[] })

/-- Starts a token, in the place of the one under construction if there is one. -/
def begin (a : Assembler) (kind : TokenKind) : Assembler :=
  { a with current := some kind }

/-- Completes the token under construction, which covers the document up to `stop`. -/
def complete (a : Assembler) (stop : Position) : Assembler :=
  match a.current with
  | none => a
  | some kind =>
    let span := if a.trackLocations then some ⟨a.tokenStart, stop⟩ else none
    { a with tokens := a.tokens.push ⟨kind, span⟩, current := none, tokenStart := stop }

/-- Edits the token under construction. -/
def edit (a : Assembler) (f : TokenKind → Except Misuse TokenKind) : Except Misuse Assembler :=
  match a.current with
  | none => .ok a
  | some kind => (f kind).map fun kind => { a with current := some kind }

/-- Edits the attribute under construction. -/
def editAttribute (a : Assembler) (f : OpenAttribute → OpenAttribute) : Assembler :=
  { a with pending := a.pending.map f }

/-- Closes the attribute under construction and gives it to the token. -/
def closeAttribute (a : Assembler) : Except Misuse Assembler :=
  match a.pending with
  | none => .ok a
  | some b => edit { a with pending := none } (·.pushAttribute b.close)

/-- Acts on one event. -/
def receive (a : Assembler) : Event → Except Misuse Assembler
  | .reset => .ok a.reset
  | .beginChars => .ok (a.begin (.chars ""))
  | .appendChars text => a.edit (·.appendText text)
  | .finishChars stop => .ok (a.complete stop)
  | .beginComment => .ok (a.begin (.comment ""))
  | .appendComment text => a.edit (·.appendText text)
  | .finishComment stop => .ok (a.complete stop)
  | .beginStartTag => .ok (a.begin (.startTag "" [] false))
  | .beginEndTag => .ok (a.begin (.endTag ""))
  | .appendTagName c => a.edit (·.appendTagName c)
  | .beginAttribute => .ok { a with pending := some {} }
  | .appendAttributeName c => .ok (a.editAttribute fun b => { b with name := b.name.push c })
  | .beginAttributeValue quoted =>
    .ok (a.editAttribute fun b => { b with values := b.values ++ [""], quoted })
  | .appendAttributeValue text =>
    .ok (a.editAttribute fun b => { b with values := modifyLast (· ++ text) b.values })
  | .finishAttributeValue => a.closeAttribute
  | .markSelfClosing => a.edit (·.markSelfClosing)
  | .finishTag stop => .ok (a.complete stop)
  | .beginStartExpression isBlock => .ok (a.begin (.startExpression "" [] isBlock))
  | .beginEndExpression => .ok (a.begin (.endExpression ""))
  | .appendExpressionName c => a.edit (·.appendExpressionName c)
  | .beginExpressionAttribute nameIsLiteral => a.edit (·.newExpressionAttribute nameIsLiteral)
  | .appendExpressionAttributeName c =>
    a.edit (·.modifyExpressionAttribute fun b => { b with name := b.name.push c })
  | .beginExpressionAttributeValue valueIsLiteral =>
    a.edit (·.modifyExpressionAttribute fun b => { b with valueIsLiteral := some valueIsLiteral })
  | .appendExpressionAttributeValue c =>
    a.edit (·.modifyExpressionAttribute fun b => { b with value := b.value.push c })
  | .finishExpression stop => .ok (a.complete stop)

/-- Acts on the events in order, up to the first misuse. -/
def receiveAll (a : Assembler) (events : List Event) : Except Misuse Assembler :=
  events.foldlM receive a

end Assembler

end TemplateMarkup
