import TemplateMarkup.Proofs.Assembler.Tokens

/-!
# What becomes of an event

The assembler ignores an event that finds nothing to act on, and drops what an end tag or an end
expression has no place for. `Keeps` is an event whose content is found again in the token or the
attribute under construction, and `Discards` one that is dropped. An event that suits the shape of
the assembler is one or the other (`keeps_or_discards`); none is lost for want of a target.
-/

namespace TemplateMarkup

/-- The empty token that an opening event stands for. -/
def Event.begins? : Event → Option TokenKind
  | .beginChars => some (.chars "")
  | .beginComment => some (.comment "")
  | .beginStartTag => some (.startTag "" [] false)
  | .beginEndTag => some (.endTag "")
  | .beginStartExpression isBlock => some (.startExpression "" [] isBlock)
  | .beginEndExpression => some (.endExpression "")
  | _ => none

/-- The closing event is one for this kind of token. -/
inductive Event.Finishes (stop : Position) : Event → TokenKind → Prop
  | chars (text : String) : Finishes stop (.finishChars stop) (.chars text)
  | comment (text : String) : Finishes stop (.finishComment stop) (.comment text)
  | startTag (name : String) (attributes : List Attribute) (selfClosing : Bool) :
      Finishes stop (.finishTag stop) (.startTag name attributes selfClosing)
  | endTag (name : String) : Finishes stop (.finishTag stop) (.endTag name)
  | startExpression (name : String) (attributes : List ExpressionAttribute) (isBlock : Bool) :
      Finishes stop (.finishExpression stop) (.startExpression name attributes isBlock)
  | endExpression (name : String) : Finishes stop (.finishExpression stop) (.endExpression name)

/-- The event tells something about an attribute of an expression. -/
def Event.isExpressionAttribute : Event → Bool
  | .beginExpressionAttribute _ => true
  | .appendExpressionAttributeName _ => true
  | .beginExpressionAttributeValue _ => true
  | .appendExpressionAttributeValue _ => true
  | _ => false

/-- What the event does to the last attribute of an expression. -/
def Event.attributeEdit? : Event → Option (ExpressionAttribute → ExpressionAttribute)
  | .appendExpressionAttributeName c => some fun b => { b with name := b.name.push c }
  | .beginExpressionAttributeValue quoted => some fun b => { b with valueIsLiteral := some quoted }
  | .appendExpressionAttributeValue c => some fun b => { b with value := b.value.push c }
  | _ => none

namespace Assembler

/-- The event finds its target and is kept: nothing else changes, and nothing is lost. -/
inductive Keeps (a : Assembler) : Event → Assembler → Prop
  | begins {e : Event} {kind : TokenKind} (he : e.begins? = some kind) (h : a.current = none)
      (hpending : a.pending = none) : Keeps a e { a with current := some kind }
  | text {s : String} (piece : String) (h : a.current = some (.chars s)) :
      Keeps a (.appendChars piece) { a with current := some (.chars (s ++ piece)) }
  | comment {s : String} (piece : String) (h : a.current = some (.comment s)) :
      Keeps a (.appendComment piece) { a with current := some (.comment (s ++ piece)) }
  | startTagName {name : String} {attributes : List Attribute} {selfClosing : Bool} (c : Char)
      (h : a.current = some (.startTag name attributes selfClosing)) :
      Keeps a (.appendTagName c)
        { a with current := some (.startTag (name.push c) attributes selfClosing) }
  | endTagName {name : String} (c : Char) (h : a.current = some (.endTag name)) :
      Keeps a (.appendTagName c) { a with current := some (.endTag (name.push c)) }
  | selfClosing {name : String} {attributes : List Attribute} {selfClosing : Bool}
      (h : a.current = some (.startTag name attributes selfClosing)) :
      Keeps a .markSelfClosing { a with current := some (.startTag name attributes true) }
  | attribute {kind : TokenKind} (h : a.current = some kind) (hk : IsTag kind)
      (hpending : a.pending = none) : Keeps a .beginAttribute { a with pending := some {} }
  | attributeName {b : OpenAttribute} (c : Char) (h : a.pending = some b) :
      Keeps a (.appendAttributeName c) { a with pending := some { b with name := b.name.push c } }
  | attributeFragment {b : OpenAttribute} (quoted : Bool) (h : a.pending = some b) :
      Keeps a (.beginAttributeValue quoted)
        { a with pending := some { b with values := b.values ++ [""], quoted } }
  | attributeValue {b : OpenAttribute} {values : List String} {value : String} (piece : String)
      (h : a.pending = some b) (hvalues : b.values = values ++ [value]) :
      Keeps a (.appendAttributeValue piece)
        { a with pending := some { b with values := values ++ [value ++ piece] } }
  | attributeClosed {name : String} {attributes : List Attribute} {selfClosing : Bool}
      {b : OpenAttribute} (h : a.current = some (.startTag name attributes selfClosing))
      (hpending : a.pending = some b) :
      Keeps a .finishAttributeValue
        { a with
          current := some (.startTag name (attributes ++ [b.close]) selfClosing)
          pending := none }
  | startExpressionName {name : String} {attributes : List ExpressionAttribute} {isBlock : Bool}
      (c : Char) (h : a.current = some (.startExpression name attributes isBlock)) :
      Keeps a (.appendExpressionName c)
        { a with current := some (.startExpression (name.push c) attributes isBlock) }
  | endExpressionName {name : String} (c : Char) (h : a.current = some (.endExpression name)) :
      Keeps a (.appendExpressionName c) { a with current := some (.endExpression (name.push c)) }
  | expressionAttribute {name : String} {attributes : List ExpressionAttribute} {isBlock : Bool}
      (quoted : Bool) (h : a.current = some (.startExpression name attributes isBlock)) :
      Keeps a (.beginExpressionAttribute quoted)
        { a with
          current := some (.startExpression name (attributes ++ [⟨"", "", quoted, none⟩]) isBlock) }
  | expressionAttributeName {name : String} {attributes : List ExpressionAttribute}
      {b : ExpressionAttribute} {isBlock : Bool} (c : Char)
      (h : a.current = some (.startExpression name (attributes ++ [b]) isBlock)) :
      Keeps a (.appendExpressionAttributeName c)
        { a with
          current := some
            (.startExpression name (attributes ++ [{ b with name := b.name.push c }]) isBlock) }
  | expressionAttributeHasValue {name : String} {attributes : List ExpressionAttribute}
      {b : ExpressionAttribute} {isBlock : Bool} (quoted : Bool)
      (h : a.current = some (.startExpression name (attributes ++ [b]) isBlock)) :
      Keeps a (.beginExpressionAttributeValue quoted)
        { a with
          current := some (.startExpression name
            (attributes ++ [{ b with valueIsLiteral := some quoted }]) isBlock) }
  | expressionAttributeValue {name : String} {attributes : List ExpressionAttribute}
      {b : ExpressionAttribute} {isBlock : Bool} (c : Char)
      (h : a.current = some (.startExpression name (attributes ++ [b]) isBlock)) :
      Keeps a (.appendExpressionAttributeValue c)
        { a with
          current := some
            (.startExpression name (attributes ++ [{ b with value := b.value.push c }]) isBlock) }
  | finishes {e : Event} {kind : TokenKind} {stop : Position} (he : e.Finishes stop kind)
      (h : a.current = some kind) (hpending : a.pending = none) :
      Keeps a e
        { a with
          tokens := a.tokens.push
            ⟨kind, if a.trackLocations then some ⟨a.tokenStart, stop⟩ else none⟩
          current := none
          tokenStart := stop }

/-- The event finds its target, which has no place for it: an attribute or the self-closing mark of
an end tag, or an attribute of an end expression. -/
inductive Discards (a : Assembler) : Event → Assembler → Prop
  | selfClosing {name : String} (h : a.current = some (.endTag name)) :
      Discards a .markSelfClosing a
  | attribute {name : String} {b : OpenAttribute} (h : a.current = some (.endTag name))
      (hpending : a.pending = some b) :
      Discards a .finishAttributeValue { a with pending := none }
  | expressionAttribute {e : Event} {name : String} (he : e.isExpressionAttribute = true)
      (h : a.current = some (.endExpression name)) : Discards a e a

variable {σ τ : Shape} {a a' : Assembler} {e : Event}

theorem receive_of_attributeEdit {f : ExpressionAttribute → ExpressionAttribute}
    (h : e.attributeEdit? = some f) : a.receive e = a.edit (·.modifyExpressionAttribute f) := by
  cases e <;> cases h <;> rfl

theorem modifyLast_concat {α : Type} (f : α → α) (xs : List α) (x : α) :
    modifyLast f (xs ++ [x]) = xs ++ [f x] := by
  induction xs with
  | nil => rfl
  | cons y ys ih => simpa [modifyLast] using ih

/-- An event that suits the shape is kept, unless it is for an end tag or an end expression that
has no place for it. -/
theorem keeps_or_discards (h : Holds σ a.current a.pending) (hσ : σ.receive e = some τ)
    (ha : a.receive e = .ok a') : a.Keeps e a' ∨ a.Discards e a' := by
  obtain ⟨track, tokens, current, pending, start⟩ := a
  dsimp only at h
  cases h with
  | idle =>
      cases e <;> cases hσ <;> cases ha
      all_goals exact Or.inl (.begins rfl rfl rfl)
  | text s =>
      cases e <;> cases hσ <;> cases ha
      · exact Or.inl (.text _ rfl)
      · exact Or.inl (.finishes (.chars s) rfl rfl)
  | comment s =>
      cases e <;> cases hσ <;> cases ha
      · exact Or.inl (.comment _ rfl)
      · exact Or.inl (.finishes (.comment s) rfl rfl)
  | tag hk =>
      cases hk with
      | startTag name attributes selfClosing =>
          cases e <;> cases hσ <;> cases ha
          · exact Or.inl (.startTagName _ rfl)
          · exact Or.inl (.attribute rfl (.startTag _ _ _) rfl)
          · exact Or.inl (.selfClosing rfl)
          · exact Or.inl (.finishes (.startTag _ _ _) rfl rfl)
      | endTag name =>
          cases e <;> cases hσ <;> cases ha
          · exact Or.inl (.endTagName _ rfl)
          · exact Or.inl (.attribute rfl (.endTag _) rfl)
          · exact Or.inr (.selfClosing rfl)
          · exact Or.inl (.finishes (.endTag _) rfl rfl)
  | attributeName hk name quoted =>
      cases e <;> cases hσ <;> cases ha
      · exact Or.inl (.attributeName _ rfl)
      · exact Or.inl (.attributeFragment _ rfl)
  | attributeValue hk name value quoted =>
      cases e <;> cases hσ
      · cases ha
        exact Or.inl (@Keeps.attributeValue _ _ [] value _ rfl rfl)
      · cases hk with
        | startTag name attributes selfClosing =>
            cases ha
            exact Or.inl (.attributeClosed rfl rfl)
        | endTag name =>
            cases ha
            exact Or.inr (.attribute rfl rfl)
  | expression hk =>
      cases hk with
      | start name attributes isBlock =>
          cases e <;> cases hσ <;> cases ha
          · exact Or.inl (.startExpressionName _ rfl)
          · exact Or.inl (.expressionAttribute _ rfl)
          · exact Or.inl (.finishes (.startExpression _ _ _) rfl rfl)
      | ending name =>
          cases e <;> cases hσ <;> cases ha
          · exact Or.inl (.endExpressionName _ rfl)
          · exact Or.inr (.expressionAttribute rfl rfl)
          · exact Or.inl (.finishes (.endExpression _) rfl rfl)
  | @startAttribute name attributes isBlock hne =>
      obtain ⟨earlier, b, rfl⟩ := (List.eq_nil_or_concat' attributes).resolve_left hne
      cases e <;> cases hσ <;> cases ha
      · exact Or.inl (.expressionAttribute _ rfl)
      · rw [modifyLast_concat]
        exact Or.inl (.expressionAttributeName _ rfl)
      · rw [modifyLast_concat]
        exact Or.inl (.expressionAttributeHasValue _ rfl)
      · rw [modifyLast_concat]
        exact Or.inl (.expressionAttributeValue _ rfl)
      · exact Or.inl (.finishes (.startExpression _ _ _) rfl rfl)
  | endAttribute name =>
      cases e <;> cases hσ <;> cases ha
      all_goals first
        | exact Or.inr (.expressionAttribute rfl rfl)
        | exact Or.inl (.finishes (.endExpression _) rfl rfl)

/-! ## A run of events -/

/-- Each event in its turn is a reset, is kept or is discarded. -/
inductive Heeds : Assembler → List Event → Assembler → Prop
  | nil (a : Assembler) : Heeds a [] a
  | reset {a a' : Assembler} {es : List Event} (later : Heeds a.reset es a') :
      Heeds a (.reset :: es) a'
  | keeps {a a₁ a' : Assembler} {e : Event} {es : List Event} (ha : a.receive e = .ok a₁)
      (h : a.Keeps e a₁) (later : Heeds a₁ es a') : Heeds a (e :: es) a'
  | discards {a a₁ a' : Assembler} {e : Event} {es : List Event} (ha : a.receive e = .ok a₁)
      (h : a.Discards e a₁) (later : Heeds a₁ es a') : Heeds a (e :: es) a'

theorem Heeds.trans {a'' : Assembler} {es es' : List Event} (h : a.Heeds es a')
    (h' : a'.Heeds es' a'') : a.Heeds (es ++ es') a'' := by
  induction h with
  | nil => exact h'
  | reset _ ih => exact .reset (ih h')
  | keeps ha hkeeps _ ih => exact .keeps ha hkeeps (ih h')
  | discards ha hdiscards _ ih => exact .discards ha hdiscards (ih h')

theorem Receives.heeds {es : List Event} (h : a.Receives es a') : a.Heeds es a' := by
  induction h with
  | nil => exact .nil _
  | cons hholds hσ ha _ ih =>
      rcases keeps_or_discards hholds hσ ha with hkeeps | hdiscards
      · exact .keeps ha hkeeps ih
      · exact .discards ha hdiscards ih

end Assembler

end TemplateMarkup
