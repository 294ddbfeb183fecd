import Mathlib.Data.List.DropRight
import TemplateMarkup.Proofs.Event.Stage
import TemplateMarkup.Proofs.Lexer.Session
import TemplateMarkup.Proofs.Tokenizer.Session

/-!
# The order of events

Whatever is done to a lexer, and though it goes on after a character that it rejects, its events
since the last reset are the beginning of whole constructs (`sinceReset_prefix_constructs`).
-/

namespace TemplateMarkup

/-! ## The stage of a state -/

/-- How far a construct has come when the lexer is in a state. -/
def State.stage : State → Stage
  | .beforeData => .idle
  | .data => .text true
  | .possibleExpressionOpen => .text true
  | .tagOpen => .idle
  | .tagName => .tagName true
  | .endTagOpen => .idle
  | .selfClosingStartTag => .tag
  | .beforeAttributeName => .tag
  | .attributeName => .attributeName true
  | .afterAttributeName => .attributeName true
  | .beforeAttributeValue => .attributeName true
  | .attributeValueQuoted _ => .attributeValue
  | .attributeValueUnquoted => .attributeValue
  | .afterAttributeValueQuoted => .tag
  | .markupDeclaration => .idle
  | .commentStart => .comment
  | .commentStartDash => .comment
  | .comment => .comment
  | .commentEndDash => .comment
  | .commentEnd => .comment
  | .expressionOpen => .idle
  | .expressionOpenBlock => .idle
  | .endExpressionOpen => .idle
  | .expressionName => .expressionName true
  | .possibleExpressionEnd => .expression
  | .beforeExpressionAttributeName => .expression
  | .expressionAttributeName => .expressionAttributeName true
  | .expressionAttributeNameQuoted _ => .expressionAttributeName true
  | .afterExpressionAttributeNameQuoted => .expressionAttributeName true
  | .beforeExpressionAttributeValue => .expressionAttributeName true
  | .expressionAttributeValue => .expressionAttributeValue true
  | .expressionAttributeValueQuoted _ => .expressionAttributeValue true
  | .afterExpressionAttributeValueQuoted => .expressionAttributeValue true

/-- The stage of a state that looks at the character `c`. A text run is opened in front of its first
character, so as long as a character of the run is ahead it may be without text. -/
def State.stageAt (s : State) (c : Char) : Stage :=
  if s = .data ∧ c ≠ '<' ∧ c ≠ '\x7b' then .text false else s.stage

variable {resolve : Resolver} {s next : State} {here : Position} {c : Char} {rest : List Char}
  {es : List Event}

theorem State.refines_stageAt (s : State) (c : Char) :
    s.stage.refines (s.stageAt c) = true := by
  unfold State.stageAt
  split
  · rename_i h
    rw [h.1]
    rfl
  · cases s <;> rfl

theorem State.reaches_of_reexamine (h : s.move resolve here c rest = .reexamine next es) :
    (s.stageAt c).reaches es (next.stageAt c) = true := by
  cases s <;> simp [State.move, Move.reference] at h <;> (repeat' split at h) <;> cases h <;>
    simp_all [State.stageAt] <;> rfl

theorem State.reaches_of_take {t : Take} (h : s.move resolve here c rest = .take t) :
    (s.stageAt c).reaches t.events t.next.stage = true := by
  cases s <;> simp [State.move, Move.reference] at h <;> (repeat' split at h) <;> cases h <;>
    simp_all [State.stageAt] <;> rfl

namespace Lexer

variable {l l' m : Lexer}

/-! ## The stage of a lexer -/

/-- How far the construct at the cursor has come. -/
def stage (l : Lexer) : Stage :=
  match l.buffer.unread with
  | [] => l.state.stage
  | c :: _ => l.state.stageAt c

theorem stage_of_unread (h : l.buffer.unread = c :: rest) : l.stage = l.state.stageAt c := by
  simp [stage, h]

theorem refines_stage (l : Lexer) : l.state.stage.refines l.stage = true := by
  unfold stage
  split
  · cases l.state <;> rfl
  · exact State.refines_stageAt _ _

theorem Step.leads (h : Step resolve l es l') : l.stage.Leads es l'.stage := by
  cases h with
  | reexamine hunread hmove =>
      rw [stage_of_unread hunread, stage_of_unread (by exact hunread)]
      exact Stage.leads_of_reaches (State.reaches_of_reexamine hmove)
  | @take _ _ t hunread hmove =>
      rw [stage_of_unread hunread]
      have hmoved := Stage.leads_of_reaches (State.reaches_of_take hmove)
      have hstage := Stage.leads_of_refines (l.take t).refines_stage
      simpa using hmoved.trans hstage

theorem Steps.leads (h : Steps resolve l es l') : l.stage.Leads es l'.stage := by
  induction h with
  | refl l => exact .refl l.stage
  | head first _ ih => exact first.leads.trans ih

/-- A lexer that halts is not in front of a text run. -/
theorem Halts.stage {error? : Option SyntaxError} (h : Halts resolve m l' error?) :
    m.stage = l'.state.stage := by
  rw [h.state]
  unfold Lexer.stage
  split
  · rfl
  · rename_i hunread
    exact if_neg (h.at_data hunread)

/-! ## The stages of a run -/

theorem leads_of_feed (resolve : Resolver) (l : Lexer) (text : String) :
    l.state.stage.Leads (l.feed resolve text).events (l.feed resolve text).lexer.state.stage := by
  obtain ⟨m, hsteps, hhalts⟩ := reads_feed resolve l text
  have hstage := Stage.leads_of_refines (l.receive text).refines_stage
  rw [← hhalts.stage]
  exact hstage.trans hsteps.leads

theorem leads_of_flush (l : Lexer) :
    l.state.stage.Leads l.flush.events l.flush.lexer.state.stage := by
  apply Stage.leads_of_reaches
  cases hunread : l.buffer.unread <;> cases hstate : l.state <;>
    simp [flush, settle, hunread, hstate] <;> rfl

theorem leads_of_call (resolve : Resolver) (l : Lexer) (call : Call) :
    l.state.stage.Leads (l.call resolve call).events (l.call resolve call).lexer.state.stage := by
  cases call with
  | part text => exact leads_of_feed resolve l text
  | eof => exact leads_of_flush l

/-! ## Since the last reset -/

/-- The events after the last reset. -/
def sinceReset (es : List Event) : List Event :=
  es.rtakeWhile (· != .reset)

theorem sinceReset_append {es' : List Event} (h : .reset ∉ es') :
    sinceReset (es ++ es') = sinceReset es ++ es' := by
  have hall : ∀ e ∈ es'.reverse, (e != .reset) = true := by
    intro e he
    rw [bne_iff_ne]
    rintro rfl
    exact h (List.mem_reverse.mp he)
  rw [sinceReset, List.rtakeWhile, List.reverse_append, List.takeWhile_append_of_pos hall]
  simp [sinceReset, List.rtakeWhile]

theorem sinceReset_concat_reset (es : List Event) : sinceReset (es ++ [.reset]) = [] := by
  simp [sinceReset]

theorem leads_of_reported (resolve : Resolver) {before : List Event} (ops : List Operation)
    (h : Stage.idle.Leads (sinceReset before) l.state.stage) :
    ∃ τ, Stage.idle.Leads (sinceReset (before ++ l.reported resolve ops)) τ := by
  induction ops generalizing l before with
  | nil => exact ⟨_, by simpa [reported] using h⟩
  | cons op ops ih =>
      rw [reported, ← List.append_assoc]
      apply ih
      cases op with
      | call call =>
          have hcall := leads_of_call resolve l call
          change Stage.idle.Leads (sinceReset (before ++ (l.call resolve call).events)) _
          rw [sinceReset_append hcall.reset_notMem]
          exact h.trans hcall
      | reset =>
          change Stage.idle.Leads (sinceReset (before ++ [.reset])) .idle
          rw [sinceReset_concat_reset]
          exact Stage.leads_of_refines rfl

/-- **The order of events.** Since the last reset a lexer has reported whole constructs, and of the
last one perhaps only the beginning. -/
theorem sinceReset_prefix_constructs (resolve : Resolver) (ops : List Operation) :
    ∃ cs : List Construct,
      sinceReset (reported resolve {} ops) <+: cs.flatMap Construct.events := by
  have hnew : Stage.idle.Leads (sinceReset []) (({} : Lexer).state.stage) :=
    Stage.leads_of_refines rfl
  obtain ⟨τ, hτ⟩ := leads_of_reported resolve ops hnew
  exact hτ.constructs

end Lexer

end TemplateMarkup
