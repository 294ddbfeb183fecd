import TemplateMarkup.Proofs.Assembler.Tokens
import TemplateMarkup.Proofs.Lexer.Session

/-!
# Where tokens stop

A token stops in one of two ways. Either the last of its characters is taken, and the lexer is
between two tokens; or a text run stops before the character that opens the next token, which is
then taken. No other step completes a token, and none leads between two tokens (`Step.effect`).

What holds of a lexer and its assembler, and is kept by such steps, by more text and by the end of the
input, holds after every session that succeeds (`HasRead.keeps`).
-/

namespace TemplateMarkup

/-- What a move at the character `c` may do: the number of characters it takes, its events and the
state it leads to. -/
inductive State.Effect (s : State) (here : Position) (c : Char) : Nat → List Event → State → Prop
  /-- Nothing is completed. -/
  | inside {n : Nat} {es : List Event} {next : State} (hes : Unstopped es)
      (hnext : next ≠ .beforeData)
      (hdata : next = .data → 0 < n ∨ s = .beforeData ∧ c ≠ '<' ∧ c ≠ '\x7b')
      (hbrace : next = .possibleExpressionOpen → s = .data ∧ c = '\x7b' ∧ n = 0 ∧ es = []) :
      Effect s here c n es next
  /-- The last character of a token is taken. -/
  | closes {es : List Event} {e : Event} (hes : Unstopped es)
      (he : e.stop? = some (here.next c)) : Effect s here c 1 (es ++ [e]) .beforeData
  /-- A text run is complete before a character that opens a token. -/
  | opens {n : Nat} {next : State} (hs : s = .data ∧ c = '<' ∨ s = .possibleExpressionOpen)
      (hnext : next = .tagOpen ∨ next = .expressionOpen) :
      Effect s here c (n + 1) [.finishChars here] next

variable {resolve : Resolver} {s next : State} {here : Position} {c : Char} {rest : List Char}
  {es : List Event}

theorem State.Effect.of_getLast? (hes : Unstopped es.dropLast)
    (hlast : es.getLast?.bind Event.stop? = some (here.next c)) :
    s.Effect here c 1 es .beforeData := by
  obtain ⟨e, hlast, he⟩ := Option.bind_eq_some_iff.mp hlast
  rw [← List.dropLast_append_getLast? e hlast]
  exact .closes hes he

theorem State.effect_of_reexamine (h : s.move resolve here c rest = .reexamine next es) :
    s.Effect here c 0 es next := by
  cases s <;> simp [State.move, Move.reference] at h <;> (repeat' split at h) <;> cases h <;>
    refine .inside ?_ ?_ ?_ ?_ <;> simp_all [Unstopped, Event.stop?]

theorem State.effect_of_take {t : Take} (h : s.move resolve here c rest = .take t) :
    s.Effect here c (t.extra + 1) t.events t.next := by
  cases s <;> simp [State.move, Move.reference] at h <;> (repeat' split at h) <;> cases h
  -- the branches that complete nothing, those that take a last character, and those before an
  -- opening one
  all_goals
    first
    | refine .inside ?_ ?_ ?_ ?_ <;> simp [Unstopped, Move.noValue, Event.stop?] <;> done
    | refine .of_getLast? ?_ ?_ <;> simp [Unstopped, Move.noValue, Event.stop?]
    | refine .opens ?_ ?_ <;> simp_all

namespace Lexer

variable {l l' : Lexer}

/-- What a step does, by the number of characters that it takes. -/
theorem Step.effect (h : Step resolve l es l') :
    ∃ c rest n, l.buffer.unread = c :: rest ∧ n ≤ l.buffer.unread.length ∧
      l'.buffer = l.buffer.advance n ∧ l.state.Effect l.position c n es l'.state := by
  cases h with
  | @reexamine c rest next es hunread hmove =>
      exact ⟨c, rest, 0, hunread, Nat.zero_le _, rfl, State.effect_of_reexamine hmove⟩
  | @take c rest t hunread hmove =>
      have hextra := State.extra_le_of_move hmove
      refine ⟨c, rest, t.extra + 1, hunread, ?_, buffer_take l t, State.effect_of_take hmove⟩
      rw [hunread, List.length_cons]
      omega

/-! ## The end of the input -/

/-- What the end of the input does to a lexer at rest: it completes a text run, or nothing. -/
inductive Flushes (l : Lexer) : List Event → Lexer → Prop
  /-- Whatever was begun stays unfinished, and a dash for which another was awaited is dropped. -/
  | unfinished {n : Nat} (hn : n = l.buffer.unread.length) (hs : l.state ≠ .data)
      (hbetween : l.state = .beforeData → n = 0) :
      Flushes l [] { l with buffer := l.buffer.advance n }
  /-- The run has text before the cursor, or else in the brace that is still unread. -/
  | completes {n : Nat} {es : List Event} (hn : n = l.buffer.unread.length)
      (hes : Unstopped es) (htext : l.state = .data ∨ 0 < n) :
      Flushes l (es ++ [.finishChars (l.buffer.advance n).position])
        { l with state := .beforeData, buffer := l.buffer.advance n }

theorem flushes_of_rest (h : Halts resolve l l none) : Flushes l l.flush.events l.flush.lexer := by
  rcases h.unread with hunread | ⟨c, hunread, hpeek⟩
  · by_cases hs : l.state = .data
    · have hflush : l.flush.events = [.finishChars l.position] ∧
          l.flush.lexer = { l with state := .beforeData } := by
        simp [flush, settle, hunread, hs]
      rw [hflush.1, hflush.2]
      exact @Flushes.completes l 0 [] (by simp [hunread]) .nil (Or.inl hs)
    · have hflush : l.flush.events = [] ∧ l.flush.lexer = l := by
        simp [flush, settle, hunread, hs]
      rw [hflush.1, hflush.2]
      exact @Flushes.unfinished l 0 (by simp [hunread]) hs fun _ => rfl
  · have hn : 1 = l.buffer.unread.length := by simp [hunread]
    cases hs : l.state with
    | beforeData =>
        have hflush : l.flush.events = [.beginChars, .appendChars "\x7b"] ++
              [.finishChars (l.buffer.advance 1).position] ∧
            l.flush.lexer = { l with state := .beforeData, buffer := l.buffer.advance 1 } := by
          simp [flush, settle, hunread, hs, position]
        rw [hflush.1, hflush.2]
        exact .completes hn (by simp [Unstopped, Event.stop?]) (Or.inr Nat.one_pos)
    | possibleExpressionOpen =>
        have hflush : l.flush.events = [.appendChars "\x7b"] ++
              [.finishChars (l.buffer.advance 1).position] ∧
            l.flush.lexer = { l with state := .beforeData, buffer := l.buffer.advance 1 } := by
          simp [flush, settle, hunread, hs, position]
        rw [hflush.1, hflush.2]
        exact .completes hn (by simp [Unstopped, Event.stop?]) (Or.inr Nat.one_pos)
    | markupDeclaration =>
        have hflush : l.flush.events = [] ∧
            l.flush.lexer = { l with buffer := l.buffer.advance 1 } := by
          simp [flush, settle, hunread, hs]
        rw [hflush.1, hflush.2]
        exact .unfinished hn (by simp [hs]) (by simp [hs])
    | _ => simp [hs, State.peeks] at hpeek

theorem unread_flush (h : Halts resolve l l none) : l.flush.lexer.buffer.unread = [] := by
  have hflush := flushes_of_rest h
  generalize l.flush.events = es, l.flush.lexer = m at hflush ⊢
  cases hflush <;> simp [*]

/-! ## What a session reads -/

theorem HasRead.flush {earlier : List String} (h : HasRead resolve earlier l) :
    HasRead resolve (earlier ++ [""]) l.flush.lexer := by
  have hrest : Halts resolve l.flush.lexer l.flush.lexer none := .exhausted (unread_flush h.rest)
  have hflush := flushes_of_rest h.rest
  generalize l.flush.events = es, l.flush.lexer = m at hflush hrest ⊢
  cases hflush <;> exact ⟨by simp [h.text], by simp [h.afterReturn], hrest⟩

theorem HasRead.call {earlier : List String} (h : HasRead resolve earlier l) {call : Call}
    (he : (l.call resolve call).error? = none) :
    HasRead resolve (earlier ++ [call.text]) (l.call resolve call).lexer := by
  cases call with
  | part text => exact h.feed he
  | eof => exact h.flush

theorem HasRead.session {earlier : List String} (h : HasRead resolve earlier l)
    {calls : List Call} (he : (l.session resolve calls).error? = none) :
    HasRead resolve (earlier ++ calls.map Call.text) (l.session resolve calls).lexer := by
  induction calls generalizing l earlier with
  | nil => simpa [Lexer.session] using h
  | cons call calls ih =>
      obtain ⟨hcall, hcalls, hlexer, -⟩ := session_cons_of_ok he
      have hlater := ih (h.call hcall) hcalls
      rwa [List.append_assoc, ← hlexer] at hlater

/-- After the end of the input nothing is left to read. -/
theorem HasRead.unread_session {earlier : List String} (h : HasRead resolve earlier l)
    {calls : List Call} (he : (l.session resolve (calls ++ [.eof])).error? = none) :
    (l.session resolve (calls ++ [.eof])).lexer.buffer.unread = [] := by
  induction calls generalizing l earlier with
  | nil => exact unread_flush h.rest
  | cons call calls ih =>
      rw [List.cons_append] at he ⊢
      obtain ⟨hcall, hcalls, hlexer, -⟩ := session_cons_of_ok he
      rw [hlexer]
      exact ih (h.call hcall) hcalls

/-! ## What reading keeps -/

section Keeps

variable {P : Lexer → Assembler → Prop} {a a' : Assembler}

/-- What holds of a lexer and its assembler holds after any steps if each step keeps it. -/
theorem Steps.keeps
    (hstep : ∀ {l l' : Lexer} {a a' : Assembler} {es : List Event}, P l a → Step resolve l es l' →
      a.Receives es a' → P l' a')
    (h : Steps resolve l es l') (ha : a.Receives es a') (hl : P l a) : P l' a' := by
  induction h generalizing a with
  | refl =>
      cases ha
      exact hl
  | head first _ ih =>
      obtain ⟨a₁, hfirst, hlater⟩ := ha.of_append
      exact ih hlater (hstep hl first hfirst)

/-- It holds after a session too if more text and the end of the input keep it. -/
theorem HasRead.keeps {earlier : List String} {calls : List Call} (h : HasRead resolve earlier l)
    (hreceive : ∀ {l : Lexer} {a : Assembler} (text : String), P l a → P (l.receive text) a)
    (hstep : ∀ {l l' : Lexer} {a a' : Assembler} {es : List Event}, P l a → Step resolve l es l' →
      a.Receives es a' → P l' a')
    (hflush : ∀ {l : Lexer} {a a' : Assembler}, P l a → Halts resolve l l none →
      a.Receives l.flush.events a' → P l.flush.lexer a')
    (he : (l.session resolve calls).error? = none)
    (ha : a.Receives (l.session resolve calls).events a') (hl : P l a) :
    P (l.session resolve calls).lexer a' := by
  induction calls generalizing l a earlier with
  | nil =>
      cases ha
      exact hl
  | cons call calls ih =>
      obtain ⟨hcall, hcalls, hlexer, hevents⟩ := session_cons_of_ok he
      rw [hevents] at ha
      rw [hlexer]
      obtain ⟨a₁, hfirst, hlater⟩ := ha.of_append
      refine ih (h.call hcall) hcalls hlater ?_
      cases call with
      | part text =>
          obtain ⟨hsteps, -⟩ := steps_feed hcall
          exact hsteps.keeps hstep hfirst (hreceive text hl)
      | eof => exact hflush hl h.rest hfirst

end Keeps

end Lexer

end TemplateMarkup
