import Mathlib
import TemplateMarkup.Proofs.Lexer.Spelling
import TemplateMarkup.Proofs.Token.Opening

/-!
# Characters that are dropped

Behind an opening the lexer waits for a letter, or for a mark that makes it another opening, and passes
over everything else (`passes_dropped`). Behind `<!` it waits for the first `--`, so a single dash
is passed over as well (`passes_declaration`).
-/

namespace TemplateMarkup

/-- The state behind the opening. -/
def Opener.state : Opener → State
  | tag => .tagOpen
  | endTag => .endTagOpen
  | expression => .expressionOpen
  | block => .expressionOpenBlock
  | endExpression => .endExpressionOpen

/-- A character that is dropped leaves nothing but a remark. -/
theorem Opener.move_of_drops {o : Opener} {c : Char} (h : o.drops c = true) (resolve : Resolver) :
    ∃ note, ∀ here rest, o.state.move resolve here c rest = Move.drop o.state note := by
  simp only [drops, Bool.and_eq_true, Bool.not_eq_true'] at h
  obtain ⟨halpha, hmarks⟩ := h
  cases o with
  | expression =>
      simp [marks] at hmarks
      by_cases hbang : c = '!'
      · exact ⟨.commentExpression, fun _ _ => by simp [state, State.move, hbang]⟩
      · exact ⟨.droppedAfter .expression c,
          fun _ _ => by simp [state, State.move, hbang, hmarks, halpha]⟩
  | tag =>
      simp [marks] at hmarks
      exact ⟨.droppedAfter .tag c, fun _ _ => by simp [state, State.move, hmarks, halpha]⟩
  | endTag => exact ⟨.droppedAfter .endTag c, fun _ _ => by simp [state, State.move, halpha]⟩
  | block => exact ⟨.droppedAfter .block c, fun _ _ => by simp [state, State.move, halpha]⟩
  | endExpression =>
      exact ⟨.droppedAfter .endExpression c, fun _ _ => by simp [state, State.move, halpha]⟩

namespace Lexer

variable {resolve : Resolver} {s s' : State} {c : Char} {w : List Char} {es : List Event}

/-- One character is dropped, which the characters behind it may decide. -/
theorem Passes.drop (note : Note)
    (h : ∀ here rest, s.move resolve here c (w ++ rest) = Move.drop s note)
    (h' : Passes resolve s w es s') : Passes resolve s (c :: w) es s' := by
  intro l rest hs hunread
  have hmove : l.state.move resolve l.position c (w ++ rest) = Move.drop s note := by
    rw [hs]
    exact h _ _
  obtain ⟨l', hsteps, hs', hunread'⟩ :=
    h' (l.take { next := s, note := some note }) rest rfl (by simp [hunread])
  exact ⟨l', .head (.take hunread hmove) hsteps, hs', hunread'⟩

theorem passes_openerText (resolve : Resolver) (o : Opener) :
    Passes resolve .beforeData o.text.toList [] o.state := by
  cases o with
  | tag => exact passes_tagOpening resolve
  | endTag =>
      have hmark : Passes resolve .tagOpen ['/'] [] .endTagOpen := .char fun _ _ => rfl
      exact (passes_tagOpening resolve).trans hmark
  | expression => exact passes_expressionOpening resolve
  | block =>
      have hmark : Passes resolve .expressionOpen ['#'] [] .expressionOpenBlock :=
        .char fun _ _ => rfl
      exact (passes_expressionOpening resolve).trans hmark
  | endExpression =>
      have hmark : Passes resolve .expressionOpen ['/'] [] .endExpressionOpen :=
        .char fun _ _ => rfl
      exact (passes_expressionOpening resolve).trans hmark

theorem passes_dropped (resolve : Resolver) {o : Opener} (h : ∀ c ∈ w, o.drops c = true) :
    Passes resolve o.state w [] o.state := by
  induction w with
  | nil => exact .nil _
  | cons c w ih =>
      obtain ⟨note, hmove⟩ := Opener.move_of_drops (h c (by simp)) resolve
      exact .drop note (fun here rest => hmove here _) (ih fun d hd => h d (by simp [hd]))

/-- Up to the first `--` behind `<!` everything is dropped. -/
theorem passes_declaration (resolve : Resolver) (hdashes : ¬['-', '-'] <:+: w)
    (hlast : ¬['-'] <:+ w) : Passes resolve .markupDeclaration w [] .markupDeclaration := by
  induction w with
  | nil => exact .nil _
  | cons c w ih =>
      have hlater : Passes resolve .markupDeclaration w [] .markupDeclaration :=
        ih (fun h => hdashes (h.trans (List.suffix_cons c w).isInfix))
          fun h => hlast (h.trans (List.suffix_cons c w))
      refine .drop (.droppedInDeclaration c) (fun here rest => ?_) hlater
      by_cases hc : c = '-'
      · -- the dash is not the last character, and the next one is no dash
        subst hc
        rcases w with _ | ⟨d, w⟩
        · exact absurd List.suffix_rfl hlast
        · have hd : d ≠ '-' := by
            rintro rfl
            exact hdashes ⟨[], w, rfl⟩
          simp [State.move, hd]
      · simp [State.move, hc]

end Lexer

end TemplateMarkup
