import Mathlib
import TemplateMarkup.Proofs.Assembler.Variants
import TemplateMarkup.Proofs.Lexer.Dropped
import TemplateMarkup.Proofs.Lexer.Marks

/-!
# Reading openings

Since the last token was complete the lexer has read nothing, a part of a text run, or a text that
begins with an opening, as far as it has come (`State.Opened`). The opening is for the kind of token that
the assembler has begun, and a step that completes nothing keeps it so (`Step.opened`).
-/

namespace TemplateMarkup

variable {resolve : Resolver} {s next : State} {here : Position} {c : Char} {rest w : List Char}
  {es : List Event} {current : Option TokenKind} {t : Take} {o : Opener} {a a' : Assembler}

theorem Assembler.Receives.current_of_ok {k : TokenKind} (h : a.Receives es a')
    (hes : a.receiveAll es = .ok { a with current := some k }) : a'.current = some k := by
  rw [Except.ok.inj (h.receiveAll.symm.trans hes)]

theorem TokenKind.Opening.edit {k l : TokenKind} (h : k.Opening w) (edit : TokenEdit)
    (hl : edit.apply k = .ok l) : l.Opening w := by
  cases h with
  | letter hk hw hc =>
      refine .letter ?_ hw hc
      rw [← hk]
      cases edit <;> cases k <;> cases hl <;> rfl
  | comment hw dropped text =>
      cases edit <;> cases hl
      exact .comment hw dropped _

/-- What has been read in a state since the last token was complete, with the token that is under
construction. -/
def State.Opened (s : State) (current : Option TokenKind) (w : List Char) : Prop :=
  match s with
  | .beforeData => w = []
  | .data => True
  | .possibleExpressionOpen => True
  | .tagOpen => Opener.tag.Layout w
  | .endTagOpen => Opener.endTag.Layout w
  | .markupDeclaration => ∃ v dropped, Opener.tag.Layout v ∧ w = v ++ '!' :: dropped
  | .expressionOpen => Opener.expression.Layout w
  | .expressionOpenBlock => Opener.block.Layout w
  | .endExpressionOpen => Opener.endExpression.Layout w
  | _ => ∃ k o, current = some k ∧ k.Opening o ∧ o <+: w

theorem State.opened_opener : o.state.Opened current w ↔ o.Layout w := by
  cases o <;> rfl

theorem State.opened_iff_of_pastOpening (h : s.pastOpening = true) :
    s.Opened current w ↔ ∃ k o, current = some k ∧ k.Opening o ∧ o <+: w := by
  cases s <;> first | rfl | cases h

/-! ## In an opening -/

/-- The first letter of a name begins a token of the kind that the opening is for. -/
theorem Opener.move_of_isAlpha (o : Opener) (hc : c.isAlpha = true) (resolve : Resolver) :
    ∃ next es k, (∀ here rest, o.state.move resolve here c rest = Move.advance next es) ∧
      next.pastOpening = true ∧ k.opener? = some o ∧
      ∀ a : Assembler, a.receiveAll es = .ok { a with current := some k } := by
  have hbang : c ≠ '!' := Lexer.ne_of_isAlpha hc (by decide)
  have hslash : c ≠ '/' := Lexer.ne_of_isAlpha hc (by decide)
  have hhash : c ≠ '#' := Lexer.ne_of_isAlpha hc (by decide)
  cases o with
  | tag =>
      exact ⟨.tagName, [.beginStartTag, .appendTagName c.toLower], .startTag _ [] false,
        fun _ _ => by simp [state, State.move, hbang, hslash, hc], rfl, rfl, fun _ => rfl⟩
  | endTag =>
      exact ⟨.tagName, [.beginEndTag, .appendTagName c.toLower], .endTag _,
        fun _ _ => by simp [state, State.move, hc], rfl, rfl, fun _ => rfl⟩
  | expression =>
      exact ⟨.expressionName, [.beginStartExpression false, .appendExpressionName c.toLower],
        .startExpression _ [] false,
        fun _ _ => by simp [state, State.move, hbang, hslash, hhash, hc], rfl, rfl, fun _ => rfl⟩
  | block =>
      exact ⟨.expressionName, [.beginStartExpression true, .appendExpressionName c.toLower],
        .startExpression _ [] true, fun _ _ => by simp [state, State.move, hc], rfl, rfl,
        fun _ => rfl⟩
  | endExpression =>
      exact ⟨.expressionName, [.beginEndExpression, .appendExpressionName c.toLower],
        .endExpression _, fun _ _ => by simp [state, State.move, hc], rfl, rfl, fun _ => rfl⟩

theorem Opener.Layout.take (hw : o.Layout w) (h : o.state.move resolve here c rest = .take t)
    (ha : a.Receives t.events a') : t.next.Opened a'.current (w ++ c :: rest.take t.extra) := by
  by_cases hdrops : o.drops c = true
  · obtain ⟨note, hmove⟩ := Opener.move_of_drops hdrops resolve
    rw [hmove] at h
    cases h
    exact State.opened_opener.mpr (hw.dropped hdrops)
  · by_cases halpha : c.isAlpha = true
    · obtain ⟨next, es, k, hmove, hnext, hk, hes⟩ := Opener.move_of_isAlpha o halpha resolve
      rw [hmove] at h
      cases h
      have hcurrent := ha.current_of_ok (hes a)
      exact (State.opened_iff_of_pastOpening hnext).mpr
        ⟨k, _, hcurrent, .letter hk hw halpha, List.prefix_rfl⟩
    · -- what is neither dropped nor a letter makes a longer opening
      have hmark : c ∈ o.marks := by simpa [Opener.drops, halpha] using hdrops
      cases o with
      | tag =>
          rcases List.mem_pair.mp hmark with rfl | rfl
          · cases h
            exact ⟨w, [], hw, rfl⟩
          · cases h
            exact hw.endTag
      | expression =>
          rcases List.mem_pair.mp hmark with rfl | rfl
          · cases h
            exact hw.endExpression
          · cases h
            exact hw.block
      | _ => cases hmark

namespace State.Opened

/-- More that is dropped in a declaration. -/
theorem declaration (h : markupDeclaration.Opened current w) (more : List Char)
    (current' : Option TokenKind) : markupDeclaration.Opened current' (w ++ more) := by
  obtain ⟨v, dropped, hv, rfl⟩ := h
  exact ⟨v, dropped ++ more, hv, by simp⟩

theorem take_of_declaration (h : markupDeclaration.Opened current w)
    (hmove : markupDeclaration.move resolve here c rest = .take t) (ha : a.Receives t.events a') :
    t.next.Opened a'.current (w ++ c :: rest.take t.extra) := by
  have hdrop : markupDeclaration.Opened a'.current (w ++ [c]) := h.declaration _ _
  by_cases hc : c = '-'
  · subst hc
    rcases rest with _ | ⟨d, rest⟩
    · cases hmove
    · by_cases hd : d = '-'
      · subst hd
        cases hmove
        obtain ⟨v, dropped, hv, rfl⟩ := h
        have hcurrent := ha.current_of_ok (k := .comment "") rfl
        exact ⟨_, _, hcurrent, .comment hv dropped "", by simp⟩
      · simp only [State.move, Move.markupDeclaration, if_neg hd, if_true, Move.drop] at hmove
        cases hmove
        exact hdrop
  · simp only [State.move, Move.markupDeclaration, if_neg hc, Move.drop] at hmove
    cases hmove
    exact hdrop

/-- Between two tokens an opening begins, or a text run. -/
theorem take_of_between (h : beforeData.Opened current w)
    (hmove : beforeData.move resolve here c rest = .take t) (current' : Option TokenKind) :
    t.next.Opened current' (w ++ c :: rest.take t.extra) := by
  obtain rfl : w = [] := h
  by_cases htag : c = '<'
  · subst htag
    cases hmove
    exact .tag
  · by_cases hbrace : c = '{'
    · subst hbrace
      rcases rest with _ | ⟨d, rest⟩
      · cases hmove
      · by_cases hd : d = '{'
        · subst hd
          cases hmove
          exact .expression
        · simp only [State.move, Move.beforeData, if_neg hd, if_true, Move.advance] at hmove
          cases hmove
          trivial
    · simp [State.move, htag, hbrace] at hmove

/-- A text run that is not completed goes on. -/
theorem take_of_text (hs : s = .data ∨ s = .possibleExpressionOpen)
    (hmove : s.move resolve here c rest = .take t) (hes : Unstopped t.events)
    (current : Option TokenKind) (w : List Char) : t.next.Opened current w := by
  rcases hs with rfl | rfl <;> simp [State.move, Move.reference] at hmove <;>
    (repeat' split at hmove) <;> cases hmove <;> first | trivial | skip
  all_goals simp [Unstopped, Event.stop?] at hes

/-- The opening is for the token that is under construction until that is complete. -/
theorem receives (h : s.Opened a.current w) (hs : s.pastOpening = true) (hes : Unstopped es)
    (ha : a.Receives es a') : ∃ k o, a'.current = some k ∧ k.Opening o ∧ o <+: w := by
  obtain ⟨k, o, hcurrent, hk, ho⟩ := (opened_iff_of_pastOpening hs).mp h
  obtain ⟨k', hcurrent', hk'⟩ := ha.keeps (P := (·.Opening o)) (fun edit hk hl => hk.edit edit hl)
    hes hcurrent hk
  exact ⟨k', o, hcurrent', hk', ho⟩

/-- Behind an opening more text may be read. -/
theorem past (h : s.Opened a.current w) (hs : s.pastOpening = true) (hes : Unstopped es)
    (ha : a.Receives es a') (hnext : next.pastOpening = true) (v : List Char) :
    next.Opened a'.current (w ++ v) := by
  obtain ⟨k, o, hcurrent, hk, ho⟩ := h.receives hs hes ha
  exact (opened_iff_of_pastOpening hnext).mpr
    ⟨k, o, hcurrent, hk, ho.trans (List.prefix_append w v)⟩

theorem take (h : s.Opened a.current w) (hmove : s.move resolve here c rest = .take t)
    (hes : Unstopped t.events) (hnext : t.next ≠ .beforeData) (ha : a.Receives t.events a') :
    t.next.Opened a'.current (w ++ c :: rest.take t.extra) := by
  have hpast : s.pastOpening = true → t.next.Opened a'.current (w ++ c :: rest.take t.extra) := by
    intro hs
    exact h.past hs hes ha ((pastOpening_of_take hs hmove).resolve_left hnext) _
  cases s with
  | beforeData => exact h.take_of_between hmove _
  | data => exact take_of_text (.inl rfl) hmove hes _ _
  | possibleExpressionOpen => exact take_of_text (.inr rfl) hmove hes _ _
  | tagOpen => exact Opener.Layout.take (o := .tag) h hmove ha
  | endTagOpen => exact Opener.Layout.take (o := .endTag) h hmove ha
  | markupDeclaration => exact h.take_of_declaration hmove ha
  | expressionOpen => exact Opener.Layout.take (o := .expression) h hmove ha
  | expressionOpenBlock => exact Opener.Layout.take (o := .block) h hmove ha
  | endExpressionOpen => exact Opener.Layout.take (o := .endExpression) h hmove ha
  | _ => exact hpast rfl

theorem reexamine (h : s.Opened a.current w)
    (hmove : s.move resolve here c rest = .reexamine next es) (hes : Unstopped es)
    (ha : a.Receives es a') : next.Opened a'.current w := by
  by_cases hs : s.pastOpening = true
  · simpa using h.past hs hes ha (pastOpening_of_reexamine hs hmove) []
  · -- only a text run is begun or goes on where nothing is taken
    cases s <;> simp [State.move, Move.reference] at hmove <;> (repeat' split at hmove) <;>
      cases hmove <;> trivial

end State.Opened

namespace Lexer

variable {l l' : Lexer}

/-- A step that completes nothing reads on in what has been opened. -/
theorem Step.opened (h : Step resolve l es l') (hes : Unstopped es) (hnext : l'.state ≠ .beforeData)
    (ha : a.Receives es a') (hw : l.state.Opened a.current w) :
    ∃ v, Over l v l' ∧ l'.state.Opened a'.current (w ++ v) := by
  cases h with
  | reexamine hunread hmove =>
      refine ⟨[], ⟨rfl, rfl, rfl⟩, ?_⟩
      rw [List.append_nil]
      exact hw.reexamine hmove hes ha
  | @take c rest t hunread hmove =>
      refine ⟨_, over_take l t, ?_⟩
      rw [hunread, List.take_succ_cons]
      exact hw.take hmove hes hnext ha

end Lexer

end TemplateMarkup
