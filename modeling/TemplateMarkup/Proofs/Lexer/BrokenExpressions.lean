import TemplateMarkup.Proofs.Lexer.Expressions
import TemplateMarkup.Proofs.Lexer.Slice
import TemplateMarkup.Proofs.Lexer.Spelling

/-!
# Expressions that are not completed

Inside an expression every character is read alone, and the opening braces stay marked until the closing
ones are there (`Steps.stays`). So an expression that breaks off has reported a beginning and nothing else
(`Steps.breaksOff`), and where the closing braces are expected anything else that ends a word is rejected
(`MayClose.rejects`).
-/

namespace TemplateMarkup

variable {resolve : Resolver} {s : State} {here : Position} {c : Char} {rest : List Char}
  {es : List Event}

/-- Inside an expression a move takes one character, and it stays inside if it completes nothing. -/
theorem State.stays_of_take {t : Take} (hs : s.inExpression = true)
    (h : s.move resolve here c rest = .take t) (hes : Unstopped t.events) :
    t.next.inExpression = true ∧ t.mark = none ∧ t.extra = 0 := by
  cases s <;> cases hs <;> simp [State.move] at h <;> (repeat' split at h) <;> cases h <;>
    simp_all [State.inExpression, Unstopped, Event.stop?]

theorem State.ne_reexamine_of_inExpression {next : State} (hs : s.inExpression = true) :
    s.move resolve here c rest ≠ .reexamine next es := by
  intro h
  cases s <;> cases hs <;> simp [State.move] at h <;> (repeat' split at h) <;> cases h

namespace Lexer

variable {l l' m : Lexer} {b : ExpressionBorder} {w v : List Char}

/-- A step inside an expression that completes nothing. -/
theorem Step.stays (h : Step resolve l es l') (hl : l.state.inExpression = true)
    (hes : Unstopped es) :
    l'.state.inExpression = true ∧ l'.expressionStart = l.expressionStart ∧
      ∃ c, l.buffer.unread = c :: l'.buffer.unread := by
  cases h with
  | reexamine hunread hmove => exact absurd hmove (State.ne_reexamine_of_inExpression hl)
  | @take c rest t hunread hmove =>
      obtain ⟨hnext, hmark, hextra⟩ := State.stays_of_take hl hmove hes
      refine ⟨hnext, by simp [Lexer.take, hmark], c, ?_⟩
      rw [hunread, buffer_take, hextra, Buffer.unread_advance, hunread]
      rfl

/-- As long as an expression is not completed, its opening braces stay marked. -/
theorem Steps.stays (h : Steps resolve l es l') (hl : l.state.inExpression = true)
    (hes : Unstopped es) :
    l'.state.inExpression = true ∧ l'.expressionStart = l.expressionStart := by
  induction h with
  | refl => exact ⟨hl, rfl⟩
  | @head l l₁ l' es es' first _ ih =>
      obtain ⟨hl₁, hstart, -⟩ := first.stays hl fun e he => hes e (by simp [he])
      obtain ⟨hl', hstart'⟩ := ih hl₁ fun e he => hes e (by simp [he])
      exact ⟨hl', hstart'.trans hstart⟩

/-- The end of the input inside an expression. -/
theorem finishes_of_inExpression (hl : l.state.inExpression = true) (hunread : l.buffer.unread = []) :
    Finishes resolve l [] := by
  have hflush : l.flush.events = [] := by
    cases hs : l.state <;> simp [hs, State.inExpression] at hl <;> simp [flush, settle, hunread, hs]
  rw [← hflush]
  exact (Halts.exhausted hunread).finishes

/-- **An expression that breaks off.** What reads on to the end of the text or beyond it without
completing anything reports nothing complete of the text either. -/
theorem Steps.breaksOff (h : Steps resolve l es l') (hl : l.state.inExpression = true)
    (hes : Unstopped es) (hcut : Cut v l m) (hpast : l'.buffer.unread.length ≤ v.length) :
    ∃ fs, Finishes resolve m fs ∧ Unstopped fs := by
  induction h generalizing m with
  | refl l =>
      rw [hcut.unread, List.length_append] at hpast
      have hm : m.buffer.unread = [] := List.length_eq_zero_iff.mp (by omega)
      exact ⟨[], finishes_of_inExpression (hcut.state ▸ hl) hm, .nil⟩
  | @head l l₁ l' es es' first later ih =>
      cases hm : m.buffer.unread with
      | nil => exact ⟨[], finishes_of_inExpression (hcut.state ▸ hl) hm, .nil⟩
      | cons c rest =>
          obtain ⟨hl₁, -, d, hunread⟩ := first.stays hl fun e he => hes e (by simp [he])
          rw [hcut.unread, hm, List.cons_append] at hunread
          have hwithin : l₁.buffer.unread = rest ++ v := (List.cons.inj hunread).2.symm
          have hpeeks : ∀ c, l.state.peeks c = false := by
            cases hs : l.state <;> simp [hs, State.inExpression] at hl <;> exact fun _ => rfl
          obtain ⟨fs, m₁, hstep, hcut₁, halike⟩ :=
            first.cut hcut hwithin (by simp [hm]) fun c _ hpeek => by simp [hpeeks c] at hpeek
          obtain ⟨gs, hfinishes, hgs⟩ :=
            ih hl₁ (fun e he => hes e (by simp [he])) hcut₁ hpast
          have hfs : Unstopped fs := halike.unstopped fun e he => hes e (by simp [he])
          exact ⟨fs ++ gs, hstep.finishes hfinishes, hfs.append hgs⟩

/-! ## Rejected characters -/

/-- The error tells the place behind the character, and the mark. -/
theorem halts_of_reject {cause : SyntaxError.Cause} (hunread : l.buffer.unread = c :: rest)
    (hmove : l.state.move resolve l.position c rest = .reject cause) :
    ∃ l', Halts resolve l l' (some ⟨cause, l.position.next c, l.expressionStart⟩) := by
  have hposition : position { l with buffer := l.buffer.advance 1 } = l.position.next c := by
    rw [(over_advance l 1).position, hunread]
    rfl
  have hhalts := Halts.rejected hunread hmove
  rw [syntaxError, hposition] at hhalts
  exact ⟨_, hhalts⟩

theorem MayClose.inExpression (h : MayClose b s) : s.inExpression = true := by
  cases h <;> rfl

/-- Where the closing braces are expected, something else is rejected. -/
theorem MayClose.rejects (resolve : Resolver) {cause : SyntaxError.Cause} (h : MayClose b s)
    (hw : b.Refuses w cause) (hl : l.state = s) (hunread : l.buffer.unread = w ++ rest) :
    ∃ l', Reads resolve l [] l' (some ⟨cause, l.position.after w, l.expressionStart⟩) := by
  cases hw with
  | @brace _ c hc =>
      obtain ⟨m, hsteps, hm, hunread'⟩ := h.passes_brace resolve l _ hl hunread
      have hover := hsteps.over_of_unread (w := ['}']) (by rw [hunread, hunread']; rfl)
      obtain ⟨-, hmark⟩ := hsteps.stays (hl ▸ h.inExpression) .nil
      have hmove : m.state.move resolve m.position c rest = .reject (.unpairedBrace c) := by
        simp [hm, State.move, hc]
      obtain ⟨l', hhalts⟩ := halts_of_reject hunread' hmove
      rw [hover.position, hmark] at hhalts
      exact ⟨l', m, hsteps, hhalts⟩
  | @key c hspace hequals hbrace =>
      cases h
      have hmove : l.state.move resolve l.position c rest = .reject (.afterQuotedName c) := by
        simp [hl, State.move, hspace, hequals, hbrace]
      obtain ⟨l', hhalts⟩ := halts_of_reject hunread hmove
      exact ⟨l', l, .refl l, hhalts⟩
  | @value c hspace hbrace =>
      cases h
      have hmove : l.state.move resolve l.position c rest = .reject (.afterQuotedValue c) := by
        simp [hl, State.move, hspace, hbrace]
      obtain ⟨l', hhalts⟩ := halts_of_reject hunread hmove
      exact ⟨l', l, .refl l, hhalts⟩

/-! ## Layouts -/

theorem unstopped_expressionAttribute (a : Construct.ExpressionAttribute) :
    Unstopped a.events := by
  cases hvalue : a.value? <;>
    simp [Unstopped, Construct.ExpressionAttribute.events, Construct.Word.valueEvents, hvalue,
      or_imp, forall_and, Event.stop?]

/-- Up to its closing braces an expression in any layout is read without completing anything, with the
opening braces marked. -/
theorem steps_expressionLayout (resolve : Resolver) {e : ExpressionLayout} (h : e.WellFormed)
    (hl : l.state = .beforeData) (hunread : l.buffer.unread = e.opened ++ w) :
    ∃ es l₁ l', Steps resolve l [] l₁ ∧ l₁.state = .expressionOpen ∧
      l₁.buffer.unread = e.body ++ w ∧ Steps resolve l₁ es l' ∧ Unstopped es ∧
      MayClose e.border l'.state ∧ l'.buffer.unread = w ∧ l'.expressionStart = l.position := by
  obtain ⟨l₁, hopened, hl₁, hunread₁, hmark⟩ := steps_expressionOpening resolve hl hunread
  obtain ⟨built, -, s, hpasses, hclose⟩ := passes_expressionBody resolve h
  obtain ⟨l', hsteps, hl', hunread'⟩ := hpasses l₁ w hl₁ hunread₁
  have hes : Unstopped (.beginStartExpression e.isBlock ::
      (e.name.toList.modifyHead Char.toLower).map .appendExpressionName ++
        built.flatMap Construct.ExpressionAttribute.events) := by
    have hname : Unstopped (.beginStartExpression e.isBlock ::
        (e.name.toList.modifyHead Char.toLower).map .appendExpressionName) := by
      simp [Unstopped, Event.stop?]
    refine hname.append fun e he => ?_
    obtain ⟨a, -, he⟩ := List.mem_flatMap.mp he
    exact unstopped_expressionAttribute a e he
  obtain ⟨-, hstart⟩ := hsteps.stays (by rw [hl₁]; rfl) hes
  exact ⟨_, l₁, l', hopened, hl₁, hunread₁, hsteps, hes, hl' ▸ hclose, hunread', hstart.trans hmark⟩

/-- **An expression that goes wrong.** -/
theorem reads_refused (resolve : Resolver) {e : ExpressionLayout} {cause : SyntaxError.Cause}
    (h : e.WellFormed) (hw : e.border.Refuses w cause) (hl : l.state = .beforeData)
    (hunread : l.buffer.unread = e.opened ++ w ++ rest) :
    ∃ es l', Reads resolve l es l' (some ⟨cause, l.position.after (e.opened ++ w), l.position⟩) := by
  rw [List.append_assoc] at hunread
  obtain ⟨es, l₁, m, hopened, -, -, hsteps, -, hclose, hunread', hmark⟩ :=
    steps_expressionLayout resolve h hl hunread
  have hwhole := hopened.trans hsteps
  have hover := hwhole.over_of_unread (w := e.opened) (by rw [hunread, hunread'])
  obtain ⟨l', hreads⟩ := hclose.rejects resolve hw rfl hunread'
  rw [hover.position, hmark, ← Position.after_append] at hreads
  exact ⟨_, l', hwhole.reads hreads⟩

/-- **An expression that breaks off.** Behind its opening braces there is no other way to go wrong. -/
theorem finishes_brokenOff (resolve : Resolver) {e : ExpressionLayout} (h : e.WellFormed)
    (hp : w <+: e.source) (hne : w ≠ e.source) (hlength : 2 ≤ w.length)
    (hl : l.state = .beforeData) (hunread : l.buffer.unread = w) :
    ∃ es, Finishes resolve l es ∧ Unstopped es := by
  obtain ⟨v, hv⟩ := hp
  obtain ⟨w, rfl⟩ : ∃ p, w = '{' :: '{' :: p := by
    match w, hlength with
    | c :: d :: w, _ =>
        simp only [ExpressionLayout.source, ExpressionLayout.opened, List.cons_append,
          List.cons.injEq] at hv
        exact ⟨w, by rw [hv.1, hv.2.1]⟩
  have hv_ne : v ≠ [] := by
    rintro rfl
    exact hne (by simpa using hv)
  -- the whole expression is read beside what there is of it
  obtain ⟨es, l₁, l', -, hl₁, hunread₁, hsteps, hes, hclose, hunread', -⟩ :=
    steps_expressionLayout resolve (l := l.extend v l.afterReturn) (w := ['}', '}']) h hl
      (by rw [unread_extend, hunread, hv]; rfl)
  obtain ⟨l₂, hbrace, -, hunread₂⟩ := hclose.passes_brace resolve l' ['}'] rfl hunread'
  obtain ⟨m, hopened, hm, hmu, -⟩ := steps_expressionOpening resolve hl hunread
  have hcut : Cut v l₁ m := by
    refine ⟨hm.trans hl₁.symm, ?_⟩
    rw [hunread₁, hmu]
    exact (List.cons.inj (List.cons.inj hv).2).2.symm
  have hpast : l₂.buffer.unread.length ≤ v.length := by
    rw [hunread₂]
    exact List.length_pos_iff.mpr hv_ne
  obtain ⟨fs, hfinishes, hfs⟩ :=
    (hsteps.trans hbrace).breaksOff (by rw [hl₁]; rfl) (by simpa using hes) hcut hpast
  exact ⟨_, hopened.finishes hfinishes, hfs⟩

end Lexer

end TemplateMarkup
