import TemplateMarkup.Proofs.Lexer.Steps
import TemplateMarkup.Proofs.Reference.Lookup

/-!
# What a move looks at

A move is decided by the state and the next character, except in two cases: a few states look at
one character more, and an `&` looks for the end of a reference.
-/

namespace TemplateMarkup

/-- The move without its remark. -/
def Move.mute : Move → Move
  | .take t => .take { t with note := none }
  | m => m

/-- The character after the next one has a say. -/
def State.peeks : State → Char → Bool
  | .beforeData, c => c == '{'
  | .possibleExpressionOpen, _ => true
  | .markupDeclaration, c => c == '-'
  | _, _ => false

/-- The event that brings the text of the state, if references may stand in it. -/
def State.textEvent? : State → Option (String → Event)
  | .data => some .appendChars
  | .attributeValueQuoted _ => some .appendAttributeValue
  | .attributeValueUnquoted => some .appendAttributeValue
  | _ => none

attribute [simp] Move.beforeData Move.data Move.possibleExpressionOpen
  Move.tagOpen Move.tagName Move.endTagOpen Move.selfClosingStartTag Move.beforeAttributeName
  Move.attributeName Move.afterAttributeName Move.beforeAttributeValue Move.attributeValueQuoted
  Move.attributeValueUnquoted Move.afterAttributeValueQuoted Move.markupDeclaration
  Move.commentStart Move.commentStartDash Move.comment Move.commentEndDash Move.commentEnd
  Move.expressionOpen Move.expressionOpenBlock Move.endExpressionOpen Move.expressionName
  Move.possibleExpressionEnd Move.beforeExpressionAttributeName Move.expressionAttributeName
  Move.expressionAttributeNameQuoted Move.afterExpressionAttributeNameQuoted
  Move.beforeExpressionAttributeValue Move.expressionAttributeValue
  Move.expressionAttributeValueQuoted Move.afterExpressionAttributeValueQuoted
  Move.advance Move.drop Move.finishTag Move.finishComment Move.resumeComment

variable {resolve resolve' : Resolver} {s : State} {here : Position} {c : Char}
  {rest rest' : List Char}

theorem Move.mute_reference (resolve : Resolver) (stay : State) (append : String → Event)
    (rest : List Char) :
    (Move.reference resolve stay append rest).mute =
      match (Reference.lookup resolve rest).known? with
      | none => .take { next := stay, events := [append "&"] }
      | some (length, text) =>
          .take { next := stay, events := [append text], extra := length + 1 } := by
  unfold Move.reference
  cases Reference.lookup resolve rest <;> rfl

theorem Move.reference_ne_wait {stay : State} {append : String → Event} :
    Move.reference resolve stay append rest ≠ .wait := by
  unfold Move.reference
  split <;> simp

/-- At an `&` in a text the move is that of the reference. -/
theorem State.move_ampersand (here : Position) {append : String → Event}
    (h : s.textEvent? = some append) :
    s.move resolve here '&' rest = Move.reference resolve s append rest := by
  cases s with
  | attributeValueQuoted quote => cases quote <;> cases h <;> rfl
  | _ => cases h <;> rfl

/-- A move is decided by the state, the character, the one after it where the state peeks, and the
reference that an `&` begins in a text. -/
theorem State.move_congr (hpeek : s.peeks c = true → rest.head? = rest'.head?)
    (href : c = '&' → s.textEvent? ≠ none →
      (Reference.lookup resolve rest).known? = (Reference.lookup resolve' rest').known?) :
    (s.move resolve here c rest).mute = (s.move resolve' here c rest').mute := by
  have hreference : ∀ append, s.textEvent? = some append → c = '&' →
      (s.move resolve here c rest).mute = (s.move resolve' here c rest').mute := by
    rintro append hs rfl
    rw [State.move_ampersand here hs, State.move_ampersand here hs, Move.mute_reference,
      Move.mute_reference, href rfl (by simp [hs])]
  cases s with
  | beforeData =>
      by_cases hc : c = '\x7b'
      · have hhead := hpeek (by simp [State.peeks, hc])
        cases rest <;> cases rest' <;> simp_all [State.move]
      · simp [State.move, hc]
  | possibleExpressionOpen =>
      have hhead := hpeek rfl
      cases rest <;> cases rest' <;> simp_all [State.move]
  | markupDeclaration =>
      by_cases hc : c = '-'
      · have hhead := hpeek (by simp [State.peeks, hc])
        cases rest <;> cases rest' <;> simp_all [State.move]
      · simp [State.move, hc]
  | data =>
      by_cases hc : c = '&'
      · exact hreference _ rfl hc
      · simp [State.move, hc]
  | attributeValueQuoted quote =>
      by_cases hc : c = '&'
      · exact hreference _ rfl hc
      · simp [State.move, hc]
  | attributeValueUnquoted =>
      by_cases hc : c = '&'
      · exact hreference _ rfl hc
      · simp [State.move, hc]
  | _ => rfl

/-- Waiting is for the character that the state would peek at. -/
theorem State.move_eq_wait_iff :
    s.move resolve here c rest = .wait ↔ s.peeks c = true ∧ rest = [] := by
  cases s <;> simp [State.move, State.peeks] <;> (repeat' split) <;>
    simp_all [Move.reference_ne_wait]

/-- In a text run every character is taken at once, unless it may be the end of the run. -/
theorem State.take_of_data (resolve : Resolver) (here : Position) (rest : List Char) (h : c ≠ '<')
    (h' : c ≠ '\x7b') : ∃ t, State.data.move resolve here c rest = .take t := by
  simp only [State.move, Move.data, if_neg h, if_neg h', Move.advance, Move.reference]
  split
  · split <;> exact ⟨_, rfl⟩
  · exact ⟨_, rfl⟩

/-- The name ahead and its `;` are there to be taken. -/
theorem Move.extra_reference_le {stay : State} {append : String → Event} {t : Take}
    (h : Move.reference resolve stay append rest = .take t) : t.extra ≤ rest.length := by
  have hmute := Move.mute_reference resolve stay append rest
  rw [h, Move.mute] at hmute
  split at hmute
  · have hextra := congrArg Take.extra (Move.take.inj hmute)
    simp_all
  · rename_i length text hknown
    have hextra := congrArg Take.extra (Move.take.inj hmute)
    obtain ⟨name, tail, rfl, -, rfl, -⟩ := Reference.known?_lookup_eq_some hknown
    simp_all

/-- No move goes beyond the text. -/
theorem State.extra_le_of_move {t : Take} (h : s.move resolve here c rest = .take t) :
    t.extra ≤ rest.length := by
  cases s <;> simp [State.move] at h <;> (repeat' split at h)
  -- a branch takes a reference, or it names the number of characters itself
  all_goals
    first
    | exact Move.extra_reference_le h
    | cases h <;> simp

theorem Move.eq_of_mute_eq_reexamine {m : Move} {next : State} {es : List Event}
    (h : m.mute = .reexamine next es) : m = .reexamine next es := by
  cases m with
  | take t => cases h
  | _ => exact h

theorem Move.eq_of_mute_eq_reject {m : Move} {cause : SyntaxError.Cause}
    (h : m.mute = .reject cause) : m = .reject cause := by
  cases m with
  | take t => cases h
  | _ => exact h

theorem Move.eq_of_mute_eq_take {m : Move} {t : Take} (h : m.mute = (Move.take t).mute) :
    ∃ note, m = .take { t with note } := by
  cases m with
  | take t' =>
      obtain ⟨next, events, extra, mark, note⟩ := t'
      obtain ⟨rfl, rfl, rfl, rfl⟩ := by simpa [Move.mute] using h
      exact ⟨note, rfl⟩
  | _ => cases h

/-- A lexer that halts is not in a text run that goes on. -/
theorem Lexer.Halts.at_data {m l' : Lexer} {error? : Option SyntaxError}
    (h : Lexer.Halts resolve m l' error?) (hunread : m.buffer.unread = c :: rest) :
    ¬(m.state = .data ∧ c ≠ '<' ∧ c ≠ '\x7b') := by
  rintro ⟨hs, hc, hc'⟩
  obtain ⟨t, ht⟩ := State.take_of_data resolve m.position rest hc hc'
  rw [← hs] at ht
  cases h <;> simp_all

end TemplateMarkup
