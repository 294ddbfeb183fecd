import Mathlib
import TemplateMarkup.Proofs.Assembler.Form
import TemplateMarkup.Proofs.Lexer.Stops
import TemplateMarkup.Proofs.Tokenizer.Session

/-!
# The form of a state

A state looks at each character before it reports it, and so knows the form of what is under
construction. The events of a move are right where they come, and lead from the form at the character
to that of the next state (`State.form_of_take`). So an assembler that holds nothing malformed still
does so after a step, and after a call (`sound_of_step`, `sound_of_call`).
-/

namespace TemplateMarkup

/-- Where the references are `strict`, none that is known stands for nothing. -/
def Strict (strict : Bool) (resolve : Resolver) : Prop :=
  strict = true → ∀ name, resolve name ≠ some ""

/-- The form of what is under construction when the lexer is in a state. -/
def State.form : State → Form
  | .beforeData => .idle
  | .data => .text true
  | .possibleExpressionOpen => .text true
  | .tagOpen => .idle
  | .tagName => .tag
  | .endTagOpen => .idle
  | .selfClosingStartTag => .tag
  | .beforeAttributeName => .tag
  | .attributeName => .attributeName
  | .afterAttributeName => .attributeName
  | .beforeAttributeValue => .attributeName
  | .attributeValueQuoted _ => .attributeValue
  | .attributeValueUnquoted => .attributeValue
  | .afterAttributeValueQuoted => .tag
  | .markupDeclaration => .idle
  | .commentStart => .comment
  | .commentStartDash => .comment
  | .comment => .comment
  | .commentEndDash => .comment
  | .commentEnd => .comment
  | .expressionOpen => .idle
  | .expressionOpenBlock => .idle
  | .endExpressionOpen => .idle
  | .expressionName => .expression
  | .possibleExpressionEnd => .expression
  | .beforeExpressionAttributeName => .expression
  | .expressionAttributeName => .expressionAttribute .name
  | .expressionAttributeNameQuoted q => .expressionAttribute (.literal q)
  | .afterExpressionAttributeNameQuoted => .expressionAttribute .named
  | .beforeExpressionAttributeValue => .expressionAttribute .named
  | .expressionAttributeValue => .expressionAttribute .value
  | .expressionAttributeValueQuoted q => .expressionAttribute (.valueLiteral q)
  | .afterExpressionAttributeValueQuoted => .expression

/-- The form of a state that looks at the character `c`. A text run is opened in front of its first
character, so as long as a character of the run is ahead it may be without text. -/
def State.formAt (s : State) (c : Char) : Form :=
  if s = .data ∧ c ≠ '<' ∧ c ≠ '\x7b' then .text false else s.form

variable {strict : Bool} {resolve : Resolver} {s next : State} {here : Position} {c : Char}
  {rest : List Char} {es : List Event}

theorem Strict.ne_empty (h : Strict strict resolve) (hstrict : strict = true) {length : Nat}
    {text : String} (hlookup : Reference.lookup resolve rest = .resolved length text) :
    text ≠ "" := by
  rintro rfl
  have hknown : (Reference.lookup resolve rest).known? = some (length, "") := by
    rw [hlookup]
    rfl
  obtain ⟨name, -, -, -, -, hname⟩ := Reference.known?_lookup_eq_some hknown
  exact h hstrict _ hname

theorem State.refines_formAt (s : State) (c : Char) : s.form.refines (s.formAt c) = true := by
  unfold State.formAt
  split
  · rename_i h
    rw [h.1]
    rfl
  · exact Form.refines_self _

theorem State.form_of_reexamine (h : s.move resolve here c rest = .reexamine next es) :
    (s.formAt c).Leads strict es (next.formAt c) := by
  cases s <;> simp [State.move, Move.reference] at h <;> (repeat' split at h) <;> cases h <;>
    simp_all [State.formAt] <;> repeat' constructor

theorem State.form_of_take (hstrict : Strict strict resolve) {t : Take}
    (h : s.move resolve here c rest = .take t) :
    (s.formAt c).Leads strict t.events t.next.form := by
  cases s <;> simp [State.move, Move.reference] at h <;> (repeat' split at h) <;> cases h <;>
    simp_all [State.formAt] <;> repeat' constructor
  -- what is left are the characters, and the texts that references stand for
  all_goals
    first
    | exact fun h => hstrict.ne_empty h ‹_›
    | simp_all [State.form, Char.isLower_toLower_eq_isAlpha, isTagNameChar, isAttributeNameChar,
        isExpressionNameChar, isExpressionAttributeStart, isQuote, isExpressionAttributeChar,
        isExpressionValueStart]

namespace Lexer

variable {l l' m : Lexer} {a a' : Assembler}

/-- The form of what is under construction at the cursor. -/
def form (l : Lexer) : Form :=
  match l.buffer.unread with
  | [] => l.state.form
  | c :: _ => l.state.formAt c

theorem form_of_unread (h : l.buffer.unread = c :: rest) : l.form = l.state.formAt c := by
  simp [form, h]

theorem refines_form (l : Lexer) : l.state.form.refines l.form = true := by
  unfold form
  split
  · exact Form.refines_self _
  · exact State.refines_formAt _ _

theorem sound_of_step (h : a.Sound strict l.form) (hstrict : Strict strict resolve)
    (hstep : Step resolve l es l') (ha : a.receiveAll es = .ok a') : a'.Sound strict l'.form := by
  cases hstep with
  | reexamine hunread hmove =>
      rw [form_of_unread hunread] at h
      rw [form_of_unread (by exact hunread)]
      exact h.receiveAll (State.form_of_reexamine hmove) ha
  | @take _ _ t hunread hmove =>
      rw [form_of_unread hunread] at h
      have htaken := h.receiveAll (State.form_of_take hstrict hmove) ha
      exact htaken.refine (l.take t).refines_form

theorem sound_of_steps (h : a.Sound strict l.form) (hstrict : Strict strict resolve)
    (hsteps : Steps resolve l es l') (ha : a.Receives es a') : a'.Sound strict l'.form :=
  hsteps.keeps (fun h hstep ha => sound_of_step h hstrict hstep ha.receiveAll) ha h

/-- A lexer that halts is not in front of a text run. -/
theorem Halts.form {error? : Option SyntaxError} (h : Halts resolve m l' error?) :
    m.form = l'.state.form := by
  rw [h.state]
  unfold Lexer.form
  split
  · rfl
  · rename_i hunread
    exact if_neg (h.at_data hunread)

theorem form_of_flush (strict : Bool) (l : Lexer) :
    l.state.form.Leads strict l.flush.events l.flush.lexer.state.form := by
  cases hunread : l.buffer.unread <;> cases hstate : l.state <;>
    simp [flush, settle, hunread, hstate, State.form] <;> repeat' constructor
  all_goals simp

/-- Whatever the call, nothing malformed comes of it. -/
theorem sound_of_call (h : a.Sound strict l.state.form) (hstrict : Strict strict resolve)
    (call : Call) (ha : a.Receives (l.call resolve call).events a') :
    a'.Sound strict (l.call resolve call).lexer.state.form := by
  cases call with
  | part text =>
      obtain ⟨m, hsteps, hhalts⟩ := reads_feed resolve l text
      have hreceived : a.Sound strict (l.receive text).form := h.refine (l.receive text).refines_form
      rw [Lexer.call, ← hhalts.form]
      exact sound_of_steps hreceived hstrict hsteps ha
  | eof => exact h.receiveAll (form_of_flush strict l) ha.receiveAll

end Lexer

end TemplateMarkup
