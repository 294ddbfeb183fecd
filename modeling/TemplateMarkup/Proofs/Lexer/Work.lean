import TemplateMarkup.Proofs.Lexer.Buffered
import TemplateMarkup.Proofs.Lexer.Expressions

/-!
# How much work reading is

Reading asks one state after another for its move. A state may hand the character on without taking it,
but the next one does not do so again, so there are at most two moves for each character (`moves_le`).
Reading that meets no error leaves nothing unread, or one character that waits for the one after it
(`feed_work`).

The move that takes two characters from inside a text looks at the second of them only. That the first
is a brace is known from how the state was entered (`OnBrace`), and it stays so whatever is done to the
lexer (`onBrace_after`).
-/

namespace TemplateMarkup.Lexer

variable {resolve : Resolver} {l l' : Lexer} {es : List Event} {error? : Option SyntaxError} {n : Nat}

/-! ## Counting the moves -/

/-- Reading as far as the text allows, with the number of states that are asked for a move: one for each
step, and one for the state that waits or rejects. Where nothing is unread no state is asked. -/
inductive ReadsIn (resolve : Resolver) :
    Nat → Lexer → List Event → Lexer → Option SyntaxError → Prop
  | exhausted {l : Lexer} (hunread : l.buffer.unread = []) : ReadsIn resolve 0 l [] l none
  | halts {l l' : Lexer} {error? : Option SyntaxError} (hunread : l.buffer.unread ≠ [])
      (h : Halts resolve l l' error?) : ReadsIn resolve 1 l [] l' error?
  | step {n : Nat} {l l' l'' : Lexer} {es es' : List Event} {error? : Option SyntaxError}
      (first : Step resolve l es l') (later : ReadsIn resolve n l' es' l'' error?) :
      ReadsIn resolve (n + 1) l (es ++ es') l'' error?

/-- However the text is read, the moves can be counted. -/
theorem Reads.exists_readsIn (h : Reads resolve l es l' error?) :
    ∃ n, ReadsIn resolve n l es l' error? := by
  obtain ⟨m, hsteps, hhalts⟩ := h
  induction hsteps with
  | refl l =>
      by_cases hunread : l.buffer.unread = []
      · cases hhalts with
        | exhausted => exact ⟨0, .exhausted hunread⟩
        | waiting hcons => simp [hunread] at hcons
        | rejected hcons => simp [hunread] at hcons
      · exact ⟨1, .halts hunread hhalts⟩
  | head first _ ih =>
      obtain ⟨n, hlater⟩ := ih hhalts
      exact ⟨n + 1, .step first hlater⟩

theorem workLeft_pos (h : l.buffer.unread ≠ []) : 1 < l.workLeft := by
  have hlength := List.length_pos_iff.mpr h
  unfold workLeft
  omega

/-- Every move takes from the work that is left, and the last one still finds some. -/
theorem ReadsIn.lt_workLeft (h : ReadsIn resolve n l es l' error?) (hunread : l.buffer.unread ≠ []) :
    n < l.workLeft := by
  induction h with
  | exhausted hnil => exact absurd hnil hunread
  | halts => exact workLeft_pos hunread
  | @step n l l₁ l' es es' error? first later ih =>
      by_cases hrest : l₁.buffer.unread = []
      · -- nothing is asked for behind the last character
        cases later with
        | exhausted => exact workLeft_pos hunread
        | halts hne => exact absurd hrest hne
        | step next _ =>
            obtain ⟨c, rest, -, hcons, -⟩ := next.effect
            simp [hrest] at hcons
      · exact Nat.lt_of_le_of_lt (ih hrest) (workLeft_lt_of_step first)

/-- **Two moves for each character.** -/
theorem ReadsIn.moves_le (h : ReadsIn resolve n l es l' error?) :
    n ≤ 2 * l.buffer.unread.length := by
  by_cases hunread : l.buffer.unread = []
  · cases h with
    | exhausted => exact Nat.zero_le _
    | halts hne => exact absurd hunread hne
    | step next _ =>
        obtain ⟨c, rest, -, hcons, -⟩ := next.effect
        simp [hunread] at hcons
  · have hwork := h.lt_workLeft hunread
    have hbit := Bool.toNat_le (l.buffer.unread.head?.any l.state.restless)
    unfold workLeft at hwork
    omega

/-! ## On the brace -/

theorem Steps.onBrace (h : Steps resolve l es l') (hl : l.OnBrace) : l'.OnBrace := by
  induction h with
  | refl => exact hl
  | head first _ ih => exact ih first.onBrace

/-- Inside a text nothing is rejected. -/
theorem Halts.onBrace (h : Halts resolve l l' error?) (hl : l.OnBrace) : l'.OnBrace := by
  cases h with
  | exhausted => exact hl
  | waiting => exact hl
  | rejected hunread hmove =>
      intro hs
      obtain ⟨hexpr, -⟩ := State.inExpression_of_reject hmove
      rw [show l.state = .possibleExpressionOpen from hs] at hexpr
      cases hexpr

theorem OnBrace.receive (hl : l.OnBrace) (text : String) : (l.receive text).OnBrace := by
  intro hs
  obtain ⟨rest, hunread⟩ := hl hs
  exact ⟨rest ++ LineEnding.fold l.afterReturn text.toList, by simp [Lexer.receive, hunread]⟩

/-- The end of the input leaves no text run open. -/
theorem OnBrace.state_flush (hl : l.OnBrace) :
    l.flush.lexer.state ≠ .data ∧ l.flush.lexer.state ≠ .possibleExpressionOpen := by
  by_cases hs : l.state = .possibleExpressionOpen
  · obtain ⟨rest, hunread⟩ := hl hs
    simp [flush, settle, hs, hunread]
  · cases hunread : l.buffer.unread <;> cases hstate : l.state <;>
      simp_all [flush, settle]

theorem OnBrace.perform (hl : l.OnBrace) (resolve : Resolver) (op : Operation) :
    (l.perform resolve op).lexer.OnBrace := by
  cases op with
  | call call =>
      cases call with
      | part text =>
          obtain ⟨m, hsteps, hhalts⟩ := reads_feed resolve l text
          exact hhalts.onBrace (hsteps.onBrace (hl.receive text))
      | eof => exact fun hs => absurd hs hl.state_flush.2
  | reset =>
      intro hs
      cases hs

/-- Whatever is done to a lexer, failing or not, the state that looks for a second brace stands on the
first. -/
theorem onBrace_after (resolve : Resolver) (ops : List Operation) : (after resolve {} ops).OnBrace := by
  induction ops using List.reverseRecOn with
  | nil =>
      intro hs
      cases hs
  | append_singleton ops op ih =>
      rw [after_concat]
      exact ih.perform resolve op

/-! ## Where reading pauses -/

/-- What is left unread without an error: nothing, or one character of which only the next one shows
what it is. -/
theorem Halts.pauses (h : Halts resolve l l none) (hl : l.OnBrace) :
    l.buffer.unread = [] ∨ ∃ c, l.buffer.unread = [c] ∧
      (l.state, c) ∈
        [(State.beforeData, '{'), (.possibleExpressionOpen, '{'), (.markupDeclaration, '-')] := by
  rcases h.unread with hunread | ⟨c, hunread, hpeek⟩
  · exact .inl hunread
  · refine .inr ⟨c, hunread, ?_⟩
    cases hs : l.state with
    | beforeData => simpa [hs, State.peeks] using hpeek
    | possibleExpressionOpen =>
        obtain ⟨rest, hbrace⟩ := hl hs
        simpa [hunread] using (List.cons.inj (hunread.symm.trans hbrace)).1
    | markupDeclaration => simpa [hs, State.peeks] using hpeek
    | _ => simp [hs, State.peeks] at hpeek

/-- **Reading ends, and pauses for one character only.** Whatever was done to the lexer, feeding it asks
for at most two moves for each character that is unread then. If no error is met, nothing is left
unread, or a brace or a dash for which one more character is awaited. Before, on the way and after, the
state inside a text that looks for a second brace stands on the first. -/
theorem feed_work (resolve : Resolver) (ops : List Operation) (text : String) :
    let l := after resolve {} ops
    let scan := l.feed resolve text
    (∃ n, ReadsIn resolve n (l.receive text) scan.events scan.lexer scan.error?) ∧
      (∀ n es l' error?, ReadsIn resolve n (l.receive text) es l' error? →
        n ≤ 2 * (l.receive text).buffer.unread.length) ∧
      (scan.error? = none → scan.lexer.buffer.unread = [] ∨ ∃ c, scan.lexer.buffer.unread = [c] ∧
        (scan.lexer.state, c) ∈
          [(State.beforeData, '{'), (.possibleExpressionOpen, '{'), (.markupDeclaration, '-')]) ∧
      l.OnBrace ∧ ∀ es m, Steps resolve (l.receive text) es m → m.OnBrace := by
  intro l scan
  have hbrace : l.OnBrace := onBrace_after resolve ops
  refine ⟨(reads_feed resolve l text).exists_readsIn, fun n es l' error? h => h.moves_le, ?_, hbrace,
    fun es m hsteps => hsteps.onBrace (hbrace.receive text)⟩
  intro he
  obtain ⟨hsteps, hhalts⟩ := steps_feed he
  exact hhalts.pauses (hsteps.onBrace (hbrace.receive text))

/-- A brace at the end of a chunk, behind one at the end of the chunk before. -/
theorem feed_work_brace :
    let l := after Reference.standard {} [.call (.part "a\x7b")]
    let scan := l.feed Reference.standard "b\x7b"
    scan.error? = none ∧
      (∃ n, ReadsIn Reference.standard n (l.receive "b\x7b") scan.events scan.lexer scan.error? ∧
        n ≤ 6) ∧
      ∃ c, scan.lexer.buffer.unread = [c] ∧ (scan.lexer.state, c) ∈
        [(State.beforeData, '{'), (.possibleExpressionOpen, '{'), (.markupDeclaration, '-')] := by
  intro l scan
  have he : scan.error? = none := by decide +kernel
  have hne : scan.lexer.buffer.unread ≠ [] := by decide +kernel
  have hlength : (l.receive "b\x7b").buffer.unread.length = 3 := by decide +kernel
  obtain ⟨⟨n, hreads⟩, hmoves, hpauses, -⟩ :=
    feed_work Reference.standard [.call (.part "a\x7b")] "b\x7b"
  have hn := hmoves n _ _ _ hreads
  rw [hlength] at hn
  exact ⟨he, ⟨n, hreads, hn⟩, (hpauses he).resolve_left hne⟩

end TemplateMarkup.Lexer
