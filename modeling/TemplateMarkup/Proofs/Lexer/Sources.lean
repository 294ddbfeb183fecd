import TemplateMarkup.Proofs.Lexer.Comments
import TemplateMarkup.Proofs.Lexer.Slice
import TemplateMarkup.Proofs.Lexer.Tags
import TemplateMarkup.Proofs.Tokenizer.TextRuns

/-!
# Reading tokens that were written out

The source of a printable token that is no text is an opening and what spells the token behind it
(`spells_source`). A text is complete only when something follows it, so between two tokens the lexer
may still owe the end of a text (`owed`). Apart from that end, what it reports of a list of tokens in
which no two texts are side by side are the events of one construct for each (`finishes_sources`).
-/

namespace TemplateMarkup.Lexer

variable {resolve : Resolver} {l : Lexer} {w rest : List Char} {k : TokenKind} {ks : List TokenKind}

/-! ## The source of one token -/

/-- Markup is an opening and what spells the token behind it. -/
theorem spells_source (resolve : Resolver) (hk : k.Printable) (hmarkup : k.isChars = false) :
    ∃ w, (k.source.toList = '<' :: w ∧ Spells resolve .tagOpen w k) ∨
      (k.source.toList = '{' :: '{' :: w ∧ Spells resolve .expressionOpen w k) := by
  cases k with
  | chars text => cases hmarkup
  | comment text =>
      refine ⟨_, .inl ⟨?_, spells_comment resolve hk⟩⟩
      simp [TokenKind.source, TokenKind.display]
  | startTag name attributes selfClosing =>
      refine ⟨_, .inl ⟨?_, spells_startTag resolve hk⟩⟩
      cases selfClosing <;> simp [TokenKind.source, TokenKind.display, List.flatMap_map]
  | endTag name =>
      refine ⟨_, .inl ⟨?_, spells_endTag resolve hk⟩⟩
      simp [TokenKind.source, TokenKind.display]
  | startExpression name attributes isBlock =>
      refine ⟨_, .inr ⟨?_, spells_startExpression resolve hk⟩⟩
      cases isBlock <;> simp [TokenKind.source, TokenKind.display, List.flatMap_map]
  | endExpression name =>
      refine ⟨_, .inr ⟨?_, spells_endExpression resolve hk⟩⟩
      simp [TokenKind.source, TokenKind.display]

/-- A text begins where no other one is open. -/
theorem passes_text (resolve : Resolver) {text : String}
    (h : isWord isTextChar isTextChar text = true) :
    Passes resolve .beforeData text.toList (.beginChars :: (pieces text).map .appendChars) .data := by
  have hmove : ∀ {c}, isTextChar c = true → c ≠ '<' ∧ c ≠ '{' ∧ c ≠ '&' := by
    intro c hc
    simpa [isTextChar, and_assoc] using hc
  obtain ⟨c, cs, hcs, hc, hcs'⟩ := isWord_iff.mp h
  have hchars : Passes resolve .data text.toList
      (text.toList.map (.appendChars ∘ String.singleton)) .data := by
    refine .chars (p := fun c => isTextChar c = true) _ ?_ ?_
    · intro c hc _ _
      obtain ⟨htag, hbrace, hamp⟩ := hmove hc
      simp [State.move, htag, hbrace, hamp]
    · rw [hcs]
      simpa using And.intro hc hcs'
  rw [hcs] at hchars ⊢
  obtain ⟨htag, hbrace, -⟩ := hmove hc
  have hbegin : Passes resolve .beforeData (c :: cs) ([.beginChars] ++ _) .data :=
    .reexamine (fun _ _ => by simp [State.move, htag, hbrace]) hchars
  simpa [pieces, hcs] using hbegin

/-! ## Between two tokens -/

/-- The end of the text that is open, if one is. -/
def owed (l : Lexer) : List Event :=
  if l.state = .data then [.finishChars l.position] else []

theorem owed_of_beforeData (h : l.state = .beforeData) : l.owed = [] := by
  simp [owed, h]

theorem owed_of_data (h : l.state = .data) : l.owed = [.finishChars l.position] := by
  simp [owed, h]

/-- A `<` ends a text and opens a tag. -/
theorem opens_tag (resolve : Resolver) (hs : l.state = .beforeData ∨ l.state = .data)
    (hunread : l.buffer.unread = '<' :: rest) :
    ∃ l', Steps resolve l l.owed l' ∧ l'.state = .tagOpen ∧ l'.buffer.unread = rest := by
  have hmove : l.state.move resolve l.position '<' rest =
      .take { next := .tagOpen, events := l.owed, mark := some .tag } := by
    rcases hs with hs | hs <;> simp [owed, hs, State.move]
  exact ⟨_, .single (.take hunread hmove), rfl, by simp [hunread]⟩

/-- Two braces end a text and open an expression. -/
theorem opens_expression (resolve : Resolver) (hs : l.state = .beforeData ∨ l.state = .data)
    (hunread : l.buffer.unread = '{' :: '{' :: rest) :
    ∃ l', Steps resolve l l.owed l' ∧ l'.state = .expressionOpen ∧ l'.buffer.unread = rest := by
  rcases hs with hs | hs
  · have hmove : l.state.move resolve l.position '{' ('{' :: rest) =
        .take { next := .expressionOpen, extra := 1, mark := some .expression } := by
      simp [hs, State.move]
    rw [owed_of_beforeData hs]
    exact ⟨_, .single (.take hunread hmove), rfl, by simp [hunread]⟩
  · have hpass : l.state.move resolve l.position '{' ('{' :: rest) =
        .reexamine .possibleExpressionOpen [] := by
      simp [hs, State.move]
    have hmove : State.move resolve .possibleExpressionOpen l.position '{' ('{' :: rest) =
        .take { next := .expressionOpen, events := [.finishChars l.position], extra := 1,
                mark := some .expression } := by
      simp [State.move]
    have hfirst := Step.reexamine hunread hpass
    have hsecond : Step resolve { l with state := .possibleExpressionOpen } _ _ :=
      .take hunread hmove
    rw [owed_of_data hs]
    exact ⟨_, .head hfirst (.single hsecond), rfl, by simp [hunread]⟩

/-- A token that is no text. -/
theorem steps_markup (resolve : Resolver) (hk : k.Printable) (hmarkup : k.isChars = false)
    (hs : l.state = .beforeData ∨ l.state = .data)
    (hunread : l.buffer.unread = k.source.toList ++ rest) :
    ∃ (c : Construct) (l' : Lexer), c.kind = k ∧ Steps resolve l (l.owed ++ c.events) l' ∧
      l'.state = .beforeData ∧ l'.buffer.unread = rest := by
  obtain ⟨w, ⟨hsource, hspells⟩ | ⟨hsource, hspells⟩⟩ := spells_source resolve hk hmarkup
  · rw [hsource] at hunread
    obtain ⟨l₁, hopen, hs₁, hunread₁⟩ := opens_tag resolve hs hunread
    obtain ⟨c, l₂, hc, hsteps, hs₂, hunread₂⟩ := hspells l₁ rest hs₁ hunread₁
    exact ⟨c, l₂, hc, hopen.trans hsteps, hs₂, hunread₂⟩
  · rw [hsource] at hunread
    obtain ⟨l₁, hopen, hs₁, hunread₁⟩ := opens_expression resolve hs hunread
    obtain ⟨c, l₂, hc, hsteps, hs₂, hunread₂⟩ := hspells l₁ rest hs₁ hunread₁
    exact ⟨c, l₂, hc, hopen.trans hsteps, hs₂, hunread₂⟩

/-! ## Lists of tokens -/

/-- At the end of the input the text that is open is complete. -/
theorem finishes_owed (hs : l.state = .beforeData ∨ l.state = .data)
    (hunread : l.buffer.unread = []) : Finishes resolve l l.owed := by
  have hflush : l.flush.events = l.owed := by
    rcases hs with hs | hs <;> simp [flush, settle, owed, hunread, hs]
  rw [← hflush]
  exact (Halts.exhausted hunread).finishes

/-- **A list of tokens.** Where a text is open, the first of them is no text. -/
theorem finishes_sources (resolve : Resolver) (hprintable : ∀ k ∈ ks, k.Printable)
    (hapart : ks.IsChain fun k k' => ¬(k.isChars = true ∧ k'.isChars = true))
    (hs : l.state = .beforeData ∨ l.state = .data ∧ ∀ k ∈ ks.head?, k.isChars = false)
    (hunread : l.buffer.unread = ks.flatMap fun k => k.source.toList) :
    ∃ cs : List Construct, cs.map Construct.kind = ks ∧
      Finishes resolve l (l.owed ++ cs.flatMap Construct.events) := by
  induction ks generalizing l with
  | nil =>
      have hs' := hs.imp_right And.left
      refine ⟨[], rfl, ?_⟩
      simpa using finishes_owed hs' hunread
  | cons k ks ih =>
      have hk := hprintable k (by simp)
      have hks : ∀ k ∈ ks, k.Printable := fun k' hk' => hprintable k' (by simp [hk'])
      rw [List.flatMap_cons] at hunread
      rw [List.isChain_cons] at hapart
      obtain ⟨hnext, hapart⟩ := hapart
      cases hchars : k.isChars with
      | true =>
          obtain ⟨text, rfl⟩ : ∃ text, k = .chars text := by
            cases k <;> simp [TokenKind.isChars] at hchars ⊢
          have hstate : l.state = .beforeData := by
            rcases hs with hs | ⟨-, hhead⟩
            · exact hs
            · simp [TokenKind.isChars] at hhead
          obtain ⟨l₁, hsteps, hs₁, hunread₁⟩ := passes_text resolve hk l _ hstate hunread
          have hhead : ∀ k ∈ ks.head?, k.isChars = false := by
            intro k' hk'
            simpa [hchars] using hnext k' hk'
          obtain ⟨cs, rfl, hlater⟩ := ih hks hapart (.inr ⟨hs₁, hhead⟩) hunread₁
          -- the text ends where the next token begins
          have hne : pieces text ≠ [] := by
            simpa [pieces] using ne_nil_of_isWord hk
          refine ⟨.text (pieces text) hne l₁.position :: cs, ?_, ?_⟩
          · simp [Construct.kind, join_pieces]
          · rw [owed_of_data hs₁] at hlater
            rw [owed_of_beforeData hstate]
            simpa [Construct.events] using hsteps.finishes hlater
      | false =>
          obtain ⟨c, l₁, rfl, hsteps, hs₁, hunread₁⟩ :=
            steps_markup resolve hk hchars (hs.imp_right And.left) hunread
          obtain ⟨cs, rfl, hlater⟩ := ih hks hapart (.inl hs₁) hunread₁
          refine ⟨c :: cs, rfl, ?_⟩
          rw [owed_of_beforeData hs₁] at hlater
          simpa using hsteps.finishes hlater

end TemplateMarkup.Lexer
