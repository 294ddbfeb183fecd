import TemplateMarkup.Assembler
import TemplateMarkup.Proofs.Lexer.Lookahead

/-!
# What is under construction

The shape of an assembler tells which construct it holds and how far that has come. A shape
receives only the events that find something to act on, and an assembler of that shape then
receives them without misuse (`receives_of_shape`).

Every state of the lexer has a shape, and the events of a move lead from the shape of the state to
that of the next one (`shape_of_move`). So the events of a lexer never misuse the assembler that
they go to, and never miss it.
-/

namespace TemplateMarkup

/-- How far the token under construction has come. -/
inductive Shape where
  /-- There is none. -/
  | idle
  | text
  | comment
  /-- A tag between its attributes. -/
  | tag
  /-- A tag and an attribute without a value. -/
  | attributeName
  /-- A tag and an attribute whose value has begun. -/
  | attributeValue
  | expression
  /-- An expression with at least one attribute. -/
  | expressionAttribute
deriving DecidableEq, Repr

namespace Shape

/-- The shape after an event, if the event finds something to act on. -/
def receive : Shape → Event → Option Shape
  | idle, .beginChars => some text
  | idle, .beginComment => some comment
  | idle, .beginStartTag => some tag
  | idle, .beginEndTag => some tag
  | idle, .beginStartExpression _ => some expression
  | idle, .beginEndExpression => some expression
  | text, .appendChars _ => some text
  | text, .finishChars _ => some idle
  | comment, .appendComment _ => some comment
  | comment, .finishComment _ => some idle
  | tag, .appendTagName _ => some tag
  | tag, .beginAttribute => some attributeName
  | tag, .markSelfClosing => some tag
  | tag, .finishTag _ => some idle
  | attributeName, .appendAttributeName _ => some attributeName
  | attributeName, .beginAttributeValue _ => some attributeValue
  | attributeValue, .appendAttributeValue _ => some attributeValue
  | attributeValue, .finishAttributeValue => some tag
  | expression, .appendExpressionName _ => some expression
  | expression, .beginExpressionAttribute _ => some expressionAttribute
  | expression, .finishExpression _ => some idle
  | expressionAttribute, .beginExpressionAttribute _ => some expressionAttribute
  | expressionAttribute, .appendExpressionAttributeName _ => some expressionAttribute
  | expressionAttribute, .beginExpressionAttributeValue _ => some expressionAttribute
  | expressionAttribute, .appendExpressionAttributeValue _ => some expressionAttribute
  | expressionAttribute, .finishExpression _ => some idle
  | _, _ => none

/-- The shape after a list of events. -/
def receiveAll (σ : Shape) (es : List Event) : Option Shape :=
  es.foldlM receive σ

/-- Whatever has the first shape also has the second: an expression with an attribute is an
expression. -/
def refines : Shape → Shape → Bool
  | expressionAttribute, expression => true
  | σ, τ => σ == τ

/-- The events suit the shape, and lead to the shape `τ`. -/
def reaches (σ : Shape) (es : List Event) (τ : Shape) : Bool :=
  (σ.receiveAll es).any (·.refines τ)

/-- No construct survives a reset. -/
theorem ne_reset_of_receive {σ τ : Shape} {e : Event} (h : σ.receive e = some τ) :
    e ≠ .reset := by
  rintro rfl
  cases σ <;> cases h

end Shape

/-! ## The assembler -/

namespace Assembler

inductive IsTag : TokenKind → Prop
  | startTag (name : String) (attributes : List Attribute) (selfClosing : Bool) :
      IsTag (.startTag name attributes selfClosing)
  | endTag (name : String) : IsTag (.endTag name)

inductive IsExpression : TokenKind → Prop
  | start (name : String) (attributes : List ExpressionAttribute) (isBlock : Bool) :
      IsExpression (.startExpression name attributes isBlock)
  | ending (name : String) : IsExpression (.endExpression name)

/-- An assembler of a shape, by the token and the attribute under construction. An end expression
takes attributes but keeps none. -/
inductive Holds : Shape → Option TokenKind → Option OpenAttribute → Prop
  | idle : Holds .idle none none
  | text (s : String) : Holds .text (some (.chars s)) none
  | comment (s : String) : Holds .comment (some (.comment s)) none
  | tag {k : TokenKind} (hk : IsTag k) : Holds .tag (some k) none
  | attributeName {k : TokenKind} (hk : IsTag k) (name : String) (quoted : Bool) :
      Holds .attributeName (some k) (some ⟨name, [], quoted⟩)
  | attributeValue {k : TokenKind} (hk : IsTag k) (name value : String) (quoted : Bool) :
      Holds .attributeValue (some k) (some ⟨name, [value], quoted⟩)
  | expression {k : TokenKind} (hk : IsExpression k) : Holds .expression (some k) none
  | startAttribute (name : String) {attributes : List ExpressionAttribute} (isBlock : Bool)
      (hne : attributes ≠ []) :
      Holds .expressionAttribute (some (.startExpression name attributes isBlock)) none
  | endAttribute (name : String) : Holds .expressionAttribute (some (.endExpression name)) none

variable {σ τ : Shape} {a : Assembler} {e : Event} {es : List Event}

theorem modifyLast_ne_nil {α : Type} {f : α → α} {xs : List α} (h : xs ≠ []) :
    modifyLast f xs ≠ [] := by
  rw [modifyLast, Ne, ← List.length_eq_zero_iff, List.length_modify, List.length_eq_zero_iff]
  exact h

/-- An event that suits the shape is no misuse. -/
theorem receive_of_shape (h : Holds σ a.current a.pending) (hσ : σ.receive e = some τ) :
    ∃ a', a.receive e = .ok a' ∧ Holds τ a'.current a'.pending := by
  obtain ⟨track, tokens, current, pending, start⟩ := a
  dsimp only at h
  cases h with
  | idle =>
      cases e <;> cases hσ
      all_goals
        refine ⟨_, rfl, ?_⟩
        repeat constructor
  | text s =>
      cases e <;> cases hσ
      · exact ⟨_, rfl, .text _⟩
      · exact ⟨_, rfl, .idle⟩
  | comment s =>
      cases e <;> cases hσ
      · exact ⟨_, rfl, .comment _⟩
      · exact ⟨_, rfl, .idle⟩
  | tag hk =>
      cases e <;> cases hσ <;> cases hk
      all_goals
        refine ⟨_, rfl, ?_⟩
        repeat constructor
  | attributeName hk name quoted =>
      cases e <;> cases hσ
      · exact ⟨_, rfl, .attributeName hk _ _⟩
      · exact ⟨_, rfl, .attributeValue hk _ _ _⟩
  | attributeValue hk name value quoted =>
      cases e <;> cases hσ <;> cases hk
      all_goals
        refine ⟨_, rfl, ?_⟩
        repeat constructor
  | expression hk =>
      cases e <;> cases hσ <;> cases hk
      all_goals
        refine ⟨_, rfl, ?_⟩
        repeat constructor
      all_goals simp
  | startAttribute name isBlock hne =>
      cases e <;> cases hσ
      · exact ⟨_, rfl, .startAttribute _ _ (by simp)⟩
      · exact ⟨_, rfl, .startAttribute _ _ (modifyLast_ne_nil hne)⟩
      · exact ⟨_, rfl, .startAttribute _ _ (modifyLast_ne_nil hne)⟩
      · exact ⟨_, rfl, .startAttribute _ _ (modifyLast_ne_nil hne)⟩
      · exact ⟨_, rfl, .idle⟩
  | endAttribute name =>
      cases e <;> cases hσ
      all_goals
        refine ⟨_, rfl, ?_⟩
        constructor

theorem Holds.refine {k : Option TokenKind} {b : Option OpenAttribute} (h : Holds σ k b)
    (hτ : σ.refines τ = true) : Holds τ k b := by
  by_cases hστ : σ = τ
  · exact hστ ▸ h
  · cases h with
    | startAttribute name isBlock hne =>
        cases τ with
        | expression => exact .expression (.start _ _ _)
        | _ => simp_all [Shape.refines]
    | endAttribute name =>
        cases τ with
        | expression => exact .expression (.ending _)
        | _ => simp_all [Shape.refines]
    | _ => simp_all [Shape.refines]

/-- Events of which each finds something to act on, and the assembler that they lead to. -/
inductive Receives : Assembler → List Event → Assembler → Prop
  | nil (a : Assembler) : Receives a [] a
  | cons {σ τ : Shape} {a a₁ a' : Assembler} {e : Event} {es : List Event}
      (hholds : Holds σ a.current a.pending) (hσ : σ.receive e = some τ)
      (ha : a.receive e = .ok a₁) (later : Receives a₁ es a') : Receives a (e :: es) a'

theorem Receives.trans {a a' a'' : Assembler} {es es' : List Event} (h : a.Receives es a')
    (h' : a'.Receives es' a'') : a.Receives (es ++ es') a'' := by
  induction h with
  | nil => exact h'
  | cons hholds hσ ha _ ih => exact .cons hholds hσ ha (ih h')

theorem Receives.receiveAll {a a' : Assembler} (h : a.Receives es a') :
    a.receiveAll es = .ok a' := by
  induction h with
  | nil => rfl
  | cons _ _ ha _ ih =>
      rw [Assembler.receiveAll, List.foldlM_cons, ha]
      exact ih

theorem Receives.reset_notMem {a a' : Assembler} (h : a.Receives es a') : .reset ∉ es := by
  induction h with
  | nil => simp
  | cons _ hσ _ _ ih =>
      have he := Shape.ne_reset_of_receive hσ
      simp [he.symm, ih]

/-- Events that suit the shape suit the assembler, and are no misuse. -/
theorem receives_of_shape (h : Holds σ a.current a.pending) (hes : σ.reaches es τ = true) :
    ∃ a', a.Receives es a' ∧ Holds τ a'.current a'.pending := by
  induction es generalizing σ a with
  | nil => exact ⟨a, .nil a, h.refine (by simpa [Shape.reaches, Shape.receiveAll] using hes)⟩
  | cons e es ih =>
      cases hσ : σ.receive e with
      | none => simp [Shape.reaches, Shape.receiveAll, hσ] at hes
      | some σ' =>
          have hes' : σ'.reaches es τ = true := by
            simpa [Shape.reaches, Shape.receiveAll, hσ] using hes
          obtain ⟨a₁, ha₁, hholds⟩ := receive_of_shape h hσ
          obtain ⟨a₂, ha₂, hholds'⟩ := ih hholds hes'
          exact ⟨a₂, .cons h hσ ha₁ ha₂, hholds'⟩

end Assembler

/-! ## The lexer -/

/-- What the assembler holds while the lexer is in a state. -/
def State.shape : State → Shape
  | .beforeData => .idle
  | .data => .text
  | .possibleExpressionOpen => .text
  | .tagOpen => .idle
  | .tagName => .tag
  | .endTagOpen => .idle
  | .selfClosingStartTag => .tag
  | .beforeAttributeName => .tag
  | .attributeName => .attributeName
  | .afterAttributeName => .attributeName
  | .beforeAttributeValue => .attributeName
  | .attributeValueQuoted _ => .attributeValue
  | .attributeValueUnquoted => .attributeValue
  | .afterAttributeValueQuoted => .tag
  | .markupDeclaration => .idle
  | .commentStart => .comment
  | .commentStartDash => .comment
  | .comment => .comment
  | .commentEndDash => .comment
  | .commentEnd => .comment
  | .expressionOpen => .idle
  | .expressionOpenBlock => .idle
  | .endExpressionOpen => .idle
  | .expressionName => .expression
  | .possibleExpressionEnd => .expression
  | .beforeExpressionAttributeName => .expression
  | .expressionAttributeName => .expressionAttribute
  | .expressionAttributeNameQuoted _ => .expressionAttribute
  | .afterExpressionAttributeNameQuoted => .expressionAttribute
  | .beforeExpressionAttributeValue => .expressionAttribute
  | .expressionAttributeValue => .expressionAttribute
  | .expressionAttributeValueQuoted _ => .expressionAttribute
  | .afterExpressionAttributeValueQuoted => .expressionAttribute

/-- The events of a move that is made, and the state it leads to. -/
def Move.effect? : Move → Option (List Event × State)
  | .wait => none
  | .reject _ => none
  | .reexamine next es => some (es, next)
  | .take t => some (t.events, t.next)

/-- The events of a move lead from the shape of the state to the shape of the next one. -/
theorem State.shape_of_move {resolve : Resolver} {s next : State} {here : Position} {c : Char}
    {rest : List Char} {es : List Event}
    (h : (s.move resolve here c rest).effect? = some (es, next)) :
    s.shape.reaches es next.shape = true := by
  cases s <;> simp [State.move, Move.reference] at h <;> (repeat' split at h) <;> cases h <;> rfl

end TemplateMarkup
