import TemplateMarkup.Proofs.Assembler.Tokens

/-!
# Tokens without their text

The outline of a token is all of it but the text of a run and the values of tag attributes. Only two
events bring such text; the others, the skeleton of what the lexer reports, are all that the
outlines depend on (`Receives.outline`).
-/

namespace TemplateMarkup

/-- The event brings a piece of a text run or of an attribute value. -/
def Event.isText : Event → Bool
  | .appendChars _ => true
  | .appendAttributeValue _ => true
  | _ => false

/-- The events but for those that bring text. -/
def skeleton (es : List Event) : List Event :=
  es.filter (!·.isText)

@[simp] theorem skeleton_nil : skeleton [] = [] := rfl

@[simp] theorem skeleton_append (es es' : List Event) :
    skeleton (es ++ es') = skeleton es ++ skeleton es' :=
  List.filter_append _ _

theorem skeleton_cons_of_isText {e : Event} (h : e.isText = true) (es : List Event) :
    skeleton (e :: es) = skeleton es := by
  simp [skeleton, h]

/-! ## Outlines -/

/-- The attribute with its fragments emptied. -/
def Attribute.outline (a : Attribute) : Attribute :=
  { a with values := a.values.map fun _ => "" }

def OpenAttribute.outline (a : OpenAttribute) : OpenAttribute :=
  { a with values := a.values.map fun _ => "" }

def TokenKind.outline : TokenKind → TokenKind
  | .chars _ => .chars ""
  | .startTag name attributes selfClosing =>
      .startTag name (attributes.map Attribute.outline) selfClosing
  | k => k

def Token.outline (t : Token) : Token :=
  { t with kind := t.kind.outline }

namespace Assembler

/-- The assembler with every token and attribute replaced by its outline. -/
def outline (a : Assembler) : Assembler :=
  { a with
    tokens := a.tokens.map Token.outline
    current := a.current.map TokenKind.outline
    pending := a.pending.map OpenAttribute.outline }

variable {σ τ : Shape} {a a' : Assembler} {e : Event} {es : List Event}

theorem outline_complete (a : Assembler) (stop : Position) :
    a.outline.complete stop = (a.complete stop).outline := by
  cases hcurrent : a.current with
  | none => simp [complete, outline, hcurrent]
  | some kind => simp [complete, outline, hcurrent, Token.outline]

/-- Text leaves the outline as it is, and any other event acts on the outline alone. -/
theorem outline_of_receive (h : Holds σ a.current a.pending) (hσ : σ.receive e = some τ)
    (ha : a.receive e = .ok a') : a.outline.receiveAll (skeleton [e]) = .ok a'.outline := by
  cases hstop : e.stop? with
  | some stop =>
      rw [receive_of_stop hstop] at ha
      obtain rfl := Except.ok.inj ha
      have hkept : skeleton [e] = [e] := by cases e <;> cases hstop <;> rfl
      rw [hkept, receiveAll_cons, receive_of_stop hstop, outline_complete]
      rfl
  | none =>
      obtain ⟨track, tokens, current, pending, start⟩ := a
      dsimp only at h
      cases h with
      | idle => cases e <;> cases hσ <;> cases ha <;> rfl
      | text s =>
          cases e <;> cases hσ <;> cases hstop
          cases ha
          rfl
      | comment s =>
          cases e <;> cases hσ <;> cases hstop
          cases ha
          rfl
      | tag hk => cases hk <;> cases e <;> cases hσ <;> cases hstop <;> cases ha <;> rfl
      | attributeName hk name quoted => cases e <;> cases hσ <;> cases ha <;> rfl
      | attributeValue hk name value quoted =>
          -- only a start tag keeps the attribute, behind those that it has
          cases hk with
          | startTag =>
              cases e <;> cases hσ <;> cases ha
              · rfl
              · simp [skeleton, Event.isText, outline, TokenKind.outline, OpenAttribute.outline,
                  OpenAttribute.close, Attribute.outline]
                rfl
          | endTag => cases e <;> cases hσ <;> cases ha <;> rfl
      | expression hk => cases hk <;> cases e <;> cases hσ <;> cases hstop <;> cases ha <;> rfl
      | startAttribute name isBlock hne =>
          cases e <;> cases hσ <;> cases hstop <;> cases ha <;> rfl
      | endAttribute name => cases e <;> cases hσ <;> cases hstop <;> cases ha <;> rfl

/-- The outlines are what the skeleton makes of an outline. -/
theorem Receives.outline (h : a.Receives es a') :
    a.outline.receiveAll (skeleton es) = .ok a'.outline := by
  induction h with
  | nil => rfl
  | @cons _ _ _ _ _ e es hholds hσ ha _ ih =>
      have hfirst := outline_of_receive hholds hσ ha
      have hsplit : skeleton (e :: es) = skeleton [e] ++ skeleton es :=
        skeleton_append [e] es
      rw [hsplit, receiveAll_append_of_ok hfirst, ih]

end Assembler

end TemplateMarkup
