import TemplateMarkup.Proofs.Lexer.Values

/-!
# Reading single braces

A single brace is text. At the beginning of a text it is read alone, inside a text together with the
character behind it, and where nothing is behind it yet the lexer waits, in one of two states. A text
of single braces and ordinary characters adds to the text run at the cursor and completes nothing,
and the end of the input then settles what is left and completes the run (`endsAsText_of_beforeData`).
-/

namespace TemplateMarkup.Lexer

open Reference (opening?)

variable {resolve : Resolver} {l l' : Lexer} {c d : Char} {v w rest : List Char} {opening : List Event}

/-! ## A brace and the character behind it -/

/-- At the beginning of a text the brace is read alone, and the character behind it as if it stood there
without the brace. -/
theorem steps_brace_first (hl : l.state = .beforeData)
    (hunread : l.buffer.unread = '{' :: d :: rest) (hd : d ≠ '{' ∧ d ≠ '<')
    (hopen : opening? resolve (d :: rest) = none) :
    ∃ l', Steps resolve l [.beginChars, .appendChars "\x7b", .appendChars (String.singleton d)] l' ∧
      l'.state = .data ∧ l'.buffer.unread = rest := by
  obtain ⟨hbrace, htag⟩ := hd
  have hmove : l.state.move resolve l.position '{' (d :: rest) =
      Move.advance .data [.beginChars, .appendChars "\x7b"] := by
    simp [hl, State.move, hbrace]
  obtain ⟨l₁, hfirst, hl₁, hunread₁⟩ : ∃ l₁, Step resolve l [.beginChars, .appendChars "\x7b"] l₁ ∧
      l₁.state = .data ∧ l₁.buffer.unread = d :: rest :=
    ⟨_, .take hunread hmove, rfl, by simp [hunread]⟩
  obtain ⟨note, hmove'⟩ := State.move_of_char (s := .data) l₁.position rfl hopen
    fun hamp => by simp [State.move, hbrace, htag, hamp]
  rw [← hl₁] at hmove'
  exact ⟨_, .head hfirst (.single (.take hunread₁ hmove')), hl₁, by simp [hunread₁]⟩

/-- Inside a text the brace is read together with the character behind it, whatever that is. -/
theorem steps_brace_inside (hl : l.state = .data)
    (hunread : l.buffer.unread = '{' :: d :: rest) (hd : d ≠ '{') :
    ∃ l', Steps resolve l [.appendChars "\x7b", .appendChars (String.singleton d)] l' ∧
      l'.state = .data ∧ l'.buffer.unread = rest := by
  have hpass : l.state.move resolve l.position '{' (d :: rest) =
      .reexamine .possibleExpressionOpen [] := by
    simp [hl, State.move]
  have hmove : State.move resolve .possibleExpressionOpen l.position '{' (d :: rest) =
      .take { next := .data
              events := [.appendChars "\x7b", .appendChars (String.singleton d)]
              extra := 1 } := by
    simp [State.move, hd]
  have hfirst := Step.reexamine hunread hpass
  have hsecond : Step resolve { l with state := .possibleExpressionOpen } _ _ :=
    .take hunread hmove
  exact ⟨_, .head hfirst (.single hsecond), rfl, by simp [hunread]⟩

/-! ## A text up to the end of the input -/

/-- Reading to the end of the text, which is `w`, reports the events `opening` and pieces of a text run
that are `w` together, some of them perhaps only when the input ends there. Nothing else completes the
run. -/
def EndsAsText (resolve : Resolver) (l : Lexer) (opening : List Event) (w : List Char) : Prop :=
  ∃ es m pieces, Reads resolve l es m none ∧ Unstopped es ∧
    es ++ m.flush.events = opening ++ pieces.map .appendChars ++ [.finishChars (l.position.after w)] ∧
    String.join pieces = String.ofList w

/-- Where the lexer is at rest, only the end of the input is still to come. -/
theorem EndsAsText.of_rest (pieces : List String) (h : Halts resolve l l none)
    (hflush : l.flush.events =
      opening ++ pieces.map .appendChars ++ [.finishChars (l.position.after w)])
    (hpieces : String.join pieces = String.ofList w) : EndsAsText resolve l opening w :=
  ⟨[], l, pieces, ⟨l, .refl l, h⟩, .nil, hflush, hpieces⟩

/-- A run of steps over the beginning of the text. -/
theorem Steps.endsAsText (pieces : List String) (hopening : Unstopped opening)
    (hsteps : Steps resolve l (opening ++ pieces.map .appendChars) l')
    (hunread : l.buffer.unread = v ++ l'.buffer.unread)
    (hpieces : String.join pieces = String.ofList v) (h : EndsAsText resolve l' [] w) :
    EndsAsText resolve l opening (v ++ w) := by
  obtain ⟨es, m, later, hreads, hes, hevents, hlater⟩ := h
  have hover : Over l v l' := hsteps.over_of_unread hunread
  refine ⟨_, m, pieces ++ later, hsteps.reads hreads, ?_, ?_, ?_⟩
  · exact (hopening.append (by simp [Unstopped, Event.stop?])).append hes
  · rw [List.append_assoc _ es, hevents, Position.after_append, hover.position]
    simp
  · rw [String.join_append, hpieces, hlater, String.ofList_append]

/-- A text in which nothing is opened: every brace in it is single. -/
structure Plain (w : List Char) : Prop where
  tag : '<' ∉ w
  reference : '&' ∉ w
  braces : ¬['{', '{'] <:+: w

theorem Plain.of_append (h : Plain (v ++ w)) : Plain w where
  tag := fun hmem => h.tag (List.mem_append_right v hmem)
  reference := fun hmem => h.reference (List.mem_append_right v hmem)
  braces := fun hpair => h.braces (hpair.trans (List.suffix_append v w).isInfix)

theorem Plain.head (h : Plain (c :: w)) : c ≠ '<' ∧ c ≠ '&' :=
  ⟨fun hc => h.tag (by simp [hc]), fun hc => h.reference (by simp [hc])⟩

theorem Plain.behind_brace (h : Plain ('{' :: d :: w)) : d ≠ '{' := by
  rintro rfl
  exact h.braces ⟨[], w, rfl⟩

/-- Inside a text, where the text breaks off in a brace. -/
theorem endsAsText_brace (hl : l.state = .data) (hunread : l.buffer.unread = ['{']) :
    EndsAsText resolve l [] ['{'] := by
  have hpass : Step resolve l [] { l with state := .possibleExpressionOpen } :=
    .reexamine hunread (by simp [hl, State.move])
  have hwait : EndsAsText resolve { l with state := .possibleExpressionOpen } [] ['{'] := by
    refine .of_rest ["\x7b"] (.waiting hunread rfl) ?_ rfl
    simp [flush, settle, hunread, position, Buffer.position_advance]
  exact (Steps.single hpass).endsAsText [] (v := []) .nil (by simp) rfl hwait

/-- Inside a text. -/
theorem endsAsText_of_data (hl : l.state = .data) (hunread : l.buffer.unread = w) (hw : Plain w) :
    EndsAsText resolve l [] w := by
  -- a brace takes the character behind it along, so the induction is on the length
  induction hn : w.length using Nat.strong_induction_on generalizing l w with
  | h n ih =>
      subst hn
      cases w with
      | nil =>
          refine .of_rest [] (.exhausted hunread) ?_ rfl
          simp [flush, settle, hunread, hl]
      | cons c w =>
          by_cases hbrace : c = '{'
          · subst hbrace
            cases w with
            | nil => exact endsAsText_brace hl hunread
            | cons d w =>
                obtain ⟨l', hsteps, hl', hunread'⟩ :=
                  steps_brace_inside hl hunread hw.behind_brace
                have hlater : EndsAsText resolve l' [] w :=
                  ih w.length (by simp) hl' hunread' (hw.of_append (v := ['{', d])) rfl
                exact Steps.endsAsText ["\x7b", String.singleton d] (v := ['{', d]) .nil
                  hsteps (by simp [hunread, hunread']) (String.toList_inj.mp (by simp)) hlater
          · have hmove : l.state.move resolve l.position c w =
                Move.advance .data [.appendChars (String.singleton c)] := by
              simp [hl, State.move, hbrace, hw.head]
            have hstep := Step.take hunread hmove
            have hunread' : (l.take { next := .data, events := [.appendChars (String.singleton c)] }
                ).buffer.unread = w := by
              simp [hunread]
            have hlater := ih w.length (by simp) rfl hunread' (hw.of_append (v := [c])) rfl
            exact Steps.endsAsText [String.singleton c] (v := [c]) .nil (.single hstep)
              (by simp [hunread]) (String.toList_inj.mp (by simp)) hlater

/-- At the beginning of a text. -/
theorem endsAsText_of_beforeData (hl : l.state = .beforeData) (hunread : l.buffer.unread = w)
    (hne : w ≠ []) (hw : Plain w) : EndsAsText resolve l [.beginChars] w := by
  have hopening : Unstopped [.beginChars] := by simp [Unstopped, Event.stop?]
  obtain ⟨c, w, rfl⟩ := List.exists_cons_of_ne_nil hne
  by_cases hbrace : c = '{'
  · subst hbrace
    cases w with
    | nil =>
        have hwait : l.state.move resolve l.position '{' [] = .wait := by simp [hl, State.move]
        refine .of_rest ["\x7b"] (.waiting hunread hwait) ?_ rfl
        simp [flush, settle, hunread, hl, position, Buffer.position_advance]
    | cons d w =>
        have htail : Plain (d :: w) := hw.of_append (v := ['{'])
        have hopen : opening? resolve (d :: w) = none := Reference.opening?_of_ne htail.head.2
        obtain ⟨l', hsteps, hl', hunread'⟩ :=
          steps_brace_first hl hunread ⟨hw.behind_brace, htail.head.1⟩ hopen
        have hlater : EndsAsText resolve l' [] w :=
          endsAsText_of_data hl' hunread' (hw.of_append (v := ['{', d]))
        exact Steps.endsAsText ["\x7b", String.singleton d] (v := ['{', d]) hopening
          hsteps (by simp [hunread, hunread']) (String.toList_inj.mp (by simp)) hlater
  · have hmove : l.state.move resolve l.position c w = .reexamine .data [.beginChars] := by
      simp [hl, State.move, hbrace, hw.head]
    have hstep := Step.reexamine hunread hmove
    have hlater : EndsAsText resolve { l with state := .data } [] (c :: w) :=
      endsAsText_of_data rfl hunread hw
    exact Steps.endsAsText [] (v := []) hopening (.single hstep) (by simp) rfl hlater

end TemplateMarkup.Lexer
