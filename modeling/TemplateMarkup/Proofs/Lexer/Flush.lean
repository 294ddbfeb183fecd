import TemplateMarkup.Proofs.Lexer.Work

/-!
# The end of the input

Where no operation has failed, a lexer that is told that the input ends has one character left at the
most, and it is known which (`Halts.pauses`). So the end of the input leaves nothing unread and completes
one text run or nothing (`Ending`), and to be told a second time makes no difference (`flush_settles`).
-/

namespace TemplateMarkup.Lexer

variable {resolve : Resolver} {l l' : Lexer} {es : List Event} {error? : Option SyntaxError}
  {ops : List Operation}

/-! ## Operations that succeed -/

/-- The operations lead a new lexer to `l`, and none of them fails. -/
inductive Reached (resolve : Resolver) : List Operation → Lexer → Prop
  | new : Reached resolve [] {}
  | perform {ops : List Operation} {op : Operation} {l : Lexer} (earlier : Reached resolve ops l)
      (he : (l.perform resolve op).error? = none) :
      Reached resolve (ops ++ [op]) (l.perform resolve op).lexer

theorem Reached.eq_after (h : Reached resolve ops l) : l = after resolve {} ops := by
  induction h with
  | new => rfl
  | perform _ _ ih =>
      subst ih
      rw [after_concat]

/-- No step follows until there is more text. -/
theorem Reached.halts (h : Reached resolve ops l) : Halts resolve l l none := by
  induction h with
  | new => exact .exhausted rfl
  | @perform ops op l _ he ih =>
      cases op with
      | call call =>
          cases call with
          | part text => exact (steps_feed he).2
          | eof => exact .exhausted (unread_flush ih)
      | reset => exact .exhausted rfl

/-! ## The position of the cursor -/

theorem Over.placed {w : List Char} (h : Over l w l') (hl : l.buffer.Placed) : l'.buffer.Placed := by
  rw [Buffer.Placed, h.consumed, List.reverse_append, List.reverse_reverse, Position.after_append, ← hl]
  exact h.position

theorem Reads.placed (h : Reads resolve l es l' error?) (hl : l.buffer.Placed) : l'.buffer.Placed := by
  obtain ⟨m, hsteps, hhalts⟩ := h
  obtain ⟨w, hover⟩ := hsteps.over
  have hm : m.buffer.Placed := hover.placed hl
  cases hhalts with
  | exhausted => exact hm
  | waiting => exact hm
  | rejected => exact hm.advance 1

theorem placed_flush (hl : l.buffer.Placed) : l.flush.lexer.buffer.Placed := by
  have hnext : (l.buffer.advance 1).Placed := hl.advance 1
  cases hunread : l.buffer.unread <;> cases hstate : l.state <;>
    simpa [flush, settle, hunread, hstate]

/-- The end of the input goes over all that is unread. -/
theorem Halts.over_flush (h : Halts resolve l l none) : Over l l.buffer.unread l.flush.lexer := by
  have hbuffer : l.flush.lexer.buffer = l.buffer.advance l.buffer.unread.length := by
    have hflush := flushes_of_rest h
    generalize l.flush.events = es, l.flush.lexer = m at hflush ⊢
    cases hflush with
    | unfinished hn => rw [hn]
    | completes hn => rw [hn]
  have hover := over_advance l l.buffer.unread.length
  rw [List.take_length] at hover
  refine ⟨?_, ?_, ?_⟩
  · rw [hbuffer]
    exact hover.unread
  · rw [hbuffer]
    exact hover.consumed
  · rw [position, hbuffer]
    exact hover.position

theorem placed_after (resolve : Resolver) (ops : List Operation) :
    (after resolve {} ops).buffer.Placed := by
  induction ops using List.reverseRecOn with
  | nil => exact Buffer.placed_empty
  | append_singleton ops op ih =>
      rw [after_concat]
      cases op with
      | call call =>
          cases call with
          | part text => exact (reads_feed resolve _ text).placed (ih.push _)
          | eof => exact placed_flush ih
      | reset => exact Buffer.placed_empty

/-- Where nothing is unread, the cursor is at the end of all that was fed since the last reset. -/
theorem HoldsText.position {chunks : List String} (h : HoldsText chunks l) (hl : l.buffer.Placed)
    (hunread : l.buffer.unread = []) :
    l.position = Position.start.after (LineEnding.normalize (String.join chunks)).toList := by
  have htext : l.buffer.consumed.reverse = l.buffer.toList := by simp [Buffer.toList, hunread]
  rw [Lexer.position, hl, htext, h.text, LineEnding.normalize, String.toList_ofList]

/-! ## What the end of the input comes to -/

/-- The events of a flush at the end `stop` of the input and the state that it leaves, by the state and
the unread text that it finds. -/
inductive Ending (stop : Position) : State → List Char → List Event → State → Prop
  /-- A brace between two tokens is a text run of its own. -/
  | braceAlone :
      Ending stop .beforeData ['{'] [.beginChars, .appendChars "\x7b", .finishChars stop] .beforeData
  /-- A brace inside a text run is the last character of it. -/
  | braceInText :
      Ending stop .possibleExpressionOpen ['{'] [.appendChars "\x7b", .finishChars stop] .beforeData
  | text : Ending stop .data [] [.finishChars stop] .beforeData
  | between : Ending stop .beforeData [] [] .beforeData
  /-- Markup stays as unfinished as it is. -/
  | markup {s : State} (hs : s ≠ .beforeData ∧ s ≠ .data ∧ s ≠ .possibleExpressionOpen)
      (unread : List Char) : Ending stop s unread [] s

/-- A lexer that has nothing left to read and no text run open is not changed by the end of the input. -/
theorem flush_of_settled (hunread : l.buffer.unread = []) (hs : l.state ≠ .data) :
    l.flush.events = [] ∧ l.flush.lexer = l := by
  simp [flush, settle, hunread, hs]

theorem Halts.ending (h : Halts resolve l l none) (hl : l.OnBrace) :
    Ending l.flush.lexer.position l.state l.buffer.unread l.flush.events l.flush.lexer.state := by
  rcases h.pauses hl with hunread | ⟨c, hunread, hpause⟩
  · by_cases hdata : l.state = .data
    · have hflush : l.flush.events = [.finishChars l.flush.lexer.position] ∧
          l.flush.lexer.state = .beforeData := by
        simp [flush, settle, hunread, hdata, position]
      rw [hflush.1, hflush.2, hdata, hunread]
      exact .text
    · obtain ⟨hevents, hlexer⟩ := flush_of_settled hunread hdata
      rw [hevents, hlexer]
      by_cases hbetween : l.state = .beforeData
      · rw [hbetween, hunread]
        exact .between
      · refine .markup ⟨hbetween, hdata, ?_⟩ _
        intro hs
        obtain ⟨rest, hbrace⟩ := hl hs
        simp [hunread] at hbrace
  · simp only [List.mem_cons, Prod.mk.injEq, List.not_mem_nil, or_false] at hpause
    rcases hpause with ⟨hs, rfl⟩ | ⟨hs, rfl⟩ | ⟨hs, rfl⟩
    · have hflush : l.flush.events =
            [.beginChars, .appendChars "\x7b", .finishChars l.flush.lexer.position] ∧
          l.flush.lexer.state = .beforeData := by
        simp [flush, settle, hunread, hs, position]
      rw [hflush.1, hflush.2, hs, hunread]
      exact .braceAlone
    · have hflush : l.flush.events =
            [.appendChars "\x7b", .finishChars l.flush.lexer.position] ∧
          l.flush.lexer.state = .beforeData := by
        simp [flush, settle, hunread, hs, position]
      rw [hflush.1, hflush.2, hs, hunread]
      exact .braceInText
    · have hflush : l.flush.events = [] ∧ l.flush.lexer.state = .markupDeclaration := by
        simp [flush, settle, hunread, hs]
      rw [hflush.1, hflush.2, hs]
      exact .markup (by simp) _

/-- **The end of the input.** It leaves nothing unread and no text run open, and what it reports is known
from the state and the character that it finds, with the end of all the text that was fed. A second end
reports nothing and changes nothing. -/
theorem flush_settles (h : Reached resolve ops l) :
    let stop := Position.start.after (LineEnding.normalize (String.join (chunksFed ops))).toList
    let flushed := l.flush
    flushed.lexer.buffer.unread = [] ∧
      flushed.lexer.state ≠ .data ∧ flushed.lexer.state ≠ .possibleExpressionOpen ∧
      Ending stop l.state l.buffer.unread flushed.events flushed.lexer.state ∧
      flushed.lexer.flush.events = [] ∧ flushed.lexer.flush.lexer = flushed.lexer := by
  intro stop flushed
  have hbrace : l.OnBrace := h.eq_after ▸ onBrace_after resolve ops
  have hplaced : l.buffer.Placed := h.eq_after ▸ placed_after resolve ops
  have htext : HoldsText (chunksFed ops) l := h.eq_after ▸ holdsText_after resolve ops
  have hunread : flushed.lexer.buffer.unread = [] := unread_flush h.halts
  have hstop : flushed.lexer.position = stop := htext.flush.position (placed_flush hplaced) hunread
  obtain ⟨hdata, hopen⟩ := hbrace.state_flush
  have hending := h.halts.ending hbrace
  rw [hstop] at hending
  exact ⟨hunread, hdata, hopen, hending, flush_of_settled hunread hdata⟩

/-- A brace at the end of a text that was reset once, with a return and its line feed in two chunks. -/
theorem flush_settles_brace :
    let ops : List Operation := [.call (.part "<b"), .reset, .call (.part "a\r"), .call .eof,
      .call (.part "\nb\x7b")]
    ∃ l, Reached Reference.standard ops l ∧ l.flush.lexer.buffer.unread = [] ∧
      l.flush.events = [.appendChars "\x7b", .finishChars ⟨2, 2⟩] ∧ l.flush.lexer.flush.events = [] := by
  intro ops
  have hreached : Reached Reference.standard ops (after Reference.standard {} ops) :=
    .perform (.perform (.perform (.perform (.perform .new (by decide +kernel)) (by decide +kernel))
      (by decide +kernel)) (by decide +kernel)) (by decide +kernel)
  obtain ⟨hunread, -, -, hending, hevents, -⟩ := flush_settles hreached
  have hs : (after Reference.standard {} ops).state = .possibleExpressionOpen := by decide +kernel
  have hleft : (after Reference.standard {} ops).buffer.unread = ['{'] := by decide +kernel
  have hstop : Position.start.after
      (LineEnding.normalize (String.join (chunksFed ops))).toList = ⟨2, 2⟩ := by decide +kernel
  rw [hs, hleft, hstop] at hending
  refine ⟨_, hreached, hunread, ?_, hevents⟩
  generalize (after Reference.standard {} ops).flush.events = es,
    (after Reference.standard {} ops).flush.lexer.state = s at hending ⊢
  cases hending with
  | braceInText => rfl
  | markup hne => exact absurd rfl hne.2.2

end TemplateMarkup.Lexer
