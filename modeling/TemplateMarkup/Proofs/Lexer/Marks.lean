import TemplateMarkup.Proofs.Lexer.Expressions

/-!
# The marks of the lexer

The lexer marks where a tag or an expression begins, and as long as it is in the middle of one the mark
stays where it is (`Step.marked`). It is set by the step that takes the first character, which comes from
between two tokens or completes a text run.
-/

namespace TemplateMarkup

/-- The mark at the first character of the token that a state is in the middle of. Declarations and
comments have that of a tag, and text runs have none. -/
def State.mark? : State → Option Mark
  | beforeData => none
  | data => none
  | possibleExpressionOpen => none
  | s => some (if s.inExpression then .expression else .tag)

/-- It is known what kind of token begins at the mark. -/
def State.pastOpening (s : State) : Bool :=
  s.mark?.isSome && s.shape != .idle

variable {resolve : Resolver} {s next : State} {here : Position} {c : Char} {rest : List Char}
  {es : List Event} {t : Take} {m : Mark}

/-- A move that completes nothing keeps the mark of the state, or sets it between two tokens. -/
theorem State.mark_of_take (h : s.move resolve here c rest = .take t) (hes : Unstopped t.events)
    (hm : t.next.mark? = some m) :
    s = .beforeData ∧ t.mark = some m ∨ s.mark? = some m ∧ t.mark = none := by
  cases s <;> simp [State.move, Move.reference] at h <;> (repeat' split at h) <;> cases h <;>
    simp_all [State.mark?, State.inExpression, Unstopped, Event.stop?]

theorem State.mark_of_reexamine (h : s.move resolve here c rest = .reexamine next es)
    (hm : next.mark? = some m) : s.mark? = some m := by
  cases s <;> simp [State.move, Move.reference] at h <;> (repeat' split at h) <;> cases h <;>
    simp_all [State.mark?, State.inExpression]

theorem State.pastOpening_of_take (hs : s.pastOpening = true)
    (h : s.move resolve here c rest = .take t) :
    t.next = .beforeData ∨ t.next.pastOpening = true := by
  cases s <;> first | cases hs; done | skip
  all_goals
    simp [State.move, Move.reference] at h
    (repeat' split at h) <;> cases h <;> first | exact .inl rfl | exact .inr rfl

theorem State.pastOpening_of_reexamine (hs : s.pastOpening = true)
    (h : s.move resolve here c rest = .reexamine next es) : next.pastOpening = true := by
  cases s <;> simp [State.move, Move.reference] at h <;> (repeat' split at h) <;> cases h <;>
    first | rfl | cases hs

/-- Only a token that is past its opening is completed by its last character. -/
theorem State.pastOpening_of_between (h : s.move resolve here c rest = .take t)
    (hnext : t.next = .beforeData) : s.pastOpening = true := by
  cases s <;> first | rfl | skip
  all_goals
    simp [State.move, Move.reference] at h
    (repeat' split at h) <;> cases h <;> cases hnext

namespace Lexer

variable {l l' : Lexer}

/-- Where the mark was set last. -/
def marked (l : Lexer) : Mark → Position
  | .tag => l.tagStart
  | .expression => l.expressionStart

theorem marked_take_of_mark (l : Lexer) (h : t.mark = some m) : (l.take t).marked m = l.position := by
  cases m <;> simp [take, h, mark, marked]

theorem marked_take_of_none (l : Lexer) (h : t.mark = none) (m : Mark) :
    (l.take t).marked m = l.marked m := by
  cases m <;> simp [take, h, marked]

/-- Between two tokens a mark is set at the cursor, and afterwards it stays. -/
theorem Step.marked (h : Step resolve l es l') (hes : Unstopped es)
    (hm : l'.state.mark? = some m) :
    l.state = .beforeData ∧ l'.marked m = l.position ∨
      l.state.mark? = some m ∧ l'.marked m = l.marked m := by
  cases h with
  | reexamine hunread hmove => exact .inr ⟨State.mark_of_reexamine hmove hm, rfl⟩
  | take hunread hmove =>
      rcases State.mark_of_take hmove hes hm with ⟨hs, hmark⟩ | ⟨hs, hmark⟩
      · exact .inl ⟨hs, marked_take_of_mark l hmark⟩
      · exact .inr ⟨hs, marked_take_of_none l hmark m⟩

theorem Step.pastOpening_of_between (h : Step resolve l es l') (hnext : l'.state = .beforeData) :
    l.state.pastOpening = true := by
  cases h with
  | reexamine hunread hmove =>
      cases State.effect_of_reexamine hmove with
      | inside _ hne => exact absurd hnext hne
  | take hunread hmove => exact State.pastOpening_of_between hmove hnext

/-- The end of the input moves no mark. -/
theorem marked_flush (l : Lexer) (m : Mark) : l.flush.lexer.marked m = l.marked m := by
  cases hunread : l.buffer.unread <;> cases hstate : l.state <;> cases m <;>
    simp [flush, settle, hunread, hstate, marked]

end Lexer

end TemplateMarkup
