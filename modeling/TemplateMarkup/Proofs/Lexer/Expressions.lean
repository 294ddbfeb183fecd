import TemplateMarkup.Proofs.Lexer.Stops

/-!
# Inside an expression

An expression is entered over two braces in a row and in no other way. The first of the two is
marked, and the mark stays where it is for as long as the expression lasts (`Steps.expression`).
Outside an expression no character is rejected.
-/

namespace TemplateMarkup

/-- The opening braces have been taken, and not both of the closing ones. -/
def State.inExpression : State → Bool
  | .expressionOpen => true
  | .expressionOpenBlock => true
  | .endExpressionOpen => true
  | .expressionName => true
  | .possibleExpressionEnd => true
  | .beforeExpressionAttributeName => true
  | .expressionAttributeName => true
  | .expressionAttributeNameQuoted _ => true
  | .afterExpressionAttributeNameQuoted => true
  | .beforeExpressionAttributeValue => true
  | .expressionAttributeValue => true
  | .expressionAttributeValueQuoted _ => true
  | .afterExpressionAttributeValueQuoted => true
  | _ => false

variable {resolve : Resolver} {s next : State} {here : Position} {c : Char} {rest : List Char}
  {es : List Event}

theorem State.inExpression_of_textEvent? {append : String → Event}
    (h : s.textEvent? = some append) : s.inExpression = false := by
  cases s <;> cases h <;> rfl

theorem State.inExpression_of_reject {cause : SyntaxError.Cause}
    (h : s.move resolve here c rest = .reject cause) :
    s.inExpression = true ∧ cause.found = c := by
  cases s <;> simp [State.move, Move.reference] at h <;> (repeat' split at h) <;> cases h <;>
    exact ⟨rfl, rfl⟩

theorem State.inExpression_of_reexamine (h : s.move resolve here c rest = .reexamine next es) :
    next.inExpression = false := by
  cases s <;> simp [State.move, Move.reference] at h <;> (repeat' split at h) <;> cases h <;> rfl

/-- Inside an expression nothing is looked at but the next character. -/
theorem State.move_of_inExpression (h : s.inExpression = true) (resolve resolve' : Resolver)
    (here : Position) (c : Char) (rest rest' : List Char) :
    s.move resolve here c rest = s.move resolve' here c rest' := by
  cases s <;> cases h <;> rfl

/-- A move stays in an expression and marks nothing, or it enters one over two braces. -/
theorem State.inExpression_of_take {t : Take} (h : s.move resolve here c rest = .take t)
    (hnext : t.next.inExpression = true) :
    s.inExpression = true ∧ t.mark = none ∨
      (s = .possibleExpressionOpen ∨ c = '\x7b') ∧ rest.head? = some '\x7b' ∧ t.extra = 1 ∧
        t.mark = some .expression := by
  cases s <;> simp [State.move, Move.reference] at h <;> (repeat' split at h) <;> cases h <;>
    simp_all [State.inExpression]

namespace Lexer

variable {l l' m : Lexer}

/-- Where a second brace is looked for, the cursor stands on the first. -/
def OnBrace (l : Lexer) : Prop :=
  l.state = .possibleExpressionOpen → ∃ rest, l.buffer.unread = '\x7b' :: rest

theorem Step.onBrace (h : Step resolve l es l') : l'.OnBrace := by
  obtain ⟨c, rest, n, hunread, -, hbuffer, heffect⟩ := h.effect
  intro hs
  rw [hs] at heffect
  cases heffect with
  | inside hes hbetween hdata hbrace =>
      obtain ⟨-, rfl, rfl, -⟩ := hbrace rfl
      refine ⟨rest, ?_⟩
      rw [hbuffer, ← hunread]
      rfl
  | opens _ hnext => rcases hnext with hnext | hnext <;> cases hnext

theorem Step.expression (h : Step resolve l es l') (hbrace : l.OnBrace)
    (hexpr : l'.state.inExpression = true) :
    l.state.inExpression = true ∧ l'.expressionStart = l.expressionStart ∨
      Over l ['\x7b', '\x7b'] l' ∧ l'.expressionStart = l.position := by
  cases h with
  | reexamine hunread hmove =>
      rw [State.inExpression_of_reexamine hmove] at hexpr
      cases hexpr
  | @take c rest t hunread hmove =>
      rcases State.inExpression_of_take hmove hexpr with ⟨hs, hmark⟩ | ⟨hc, hrest, hextra, hmark⟩
      · exact Or.inl ⟨hs, by simp [Lexer.take, hmark]⟩
      · obtain rfl : c = '\x7b' := by
          rcases hc with hs | hc
          · obtain ⟨ds, hds⟩ := hbrace hs
            rw [hunread] at hds
            exact (List.cons.inj hds).1
          · exact hc
        obtain ⟨ds, rfl⟩ := List.head?_eq_some_iff.mp hrest
        have hover := over_take l t
        rw [hunread, hextra] at hover
        exact Or.inr ⟨hover, by simp [Lexer.take, hmark, Lexer.mark]⟩

/-- Inside an expression the mark is where it was before the run, if the run has not left the
expression since, or on the first of two braces that the run has gone over. -/
theorem Steps.expression (h : Steps resolve l es l') (hbrace : l.OnBrace)
    (hexpr : l'.state.inExpression = true) :
    l.state.inExpression = true ∧ l'.expressionStart = l.expressionStart ∨
      ∃ v w, Over l (v ++ '\x7b' :: '\x7b' :: w) l' ∧ l'.expressionStart = l.position.after v := by
  induction h with
  | refl l => exact Or.inl ⟨hexpr, rfl⟩
  | @head l m l' es es' first later ih =>
      rcases ih first.onBrace hexpr with ⟨hm, hmark⟩ | ⟨v, w, hover, hmark⟩
      · rcases first.expression hbrace hm with ⟨hl, hmark'⟩ | ⟨hover, hmark'⟩
        · exact Or.inl ⟨hl, hmark.trans hmark'⟩
        · obtain ⟨w, hw⟩ := later.over
          exact Or.inr ⟨[], w, hover.trans hw, hmark.trans hmark'⟩
      · obtain ⟨u, hu⟩ := first.over
        refine Or.inr ⟨u ++ v, w, ?_, ?_⟩
        · rw [List.append_assoc]
          exact hu.trans hover
        · rw [Position.after_append, hmark, hu.position]

end Lexer

end TemplateMarkup
