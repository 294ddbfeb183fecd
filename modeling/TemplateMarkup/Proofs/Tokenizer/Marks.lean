import TemplateMarkup.Proofs.Lexer.Flush
import TemplateMarkup.Proofs.Lexer.Openings
import TemplateMarkup.Proofs.Tokenizer.Documents
import TemplateMarkup.Proofs.Tokenizer.Locality

/-!
# Where a token begins

The lexer marks the first character of an opening when it takes it, and the assembler remembers where
the last token stopped. The two are the same place (`Marked`), whatever the tokenizer is asked, because
nothing lies between two tokens: what is dropped belongs to the token that it stands in. So the part of
the document that a token covers begins with the opening of the token (`starts_agree`).
-/

namespace TemplateMarkup

variable {resolve : Resolver} {l l' p : Lexer} {a a' : Assembler} {e : Event} {es : List Event}
  {v w text : List Char} {t : Token}

/-- Unless it is a text run, the token covers a part of the text that begins with an opening for it, and
this with the characters that are marked. -/
def Token.OpensIn (text : List Char) (t : Token) : Prop :=
  ∀ m, t.kind.mark? = some m → ∃ span slice opening, t.span = some span ∧
    span.Covers text slice ∧ m.text <+: slice ∧ t.kind.Opening opening ∧ opening <+: slice

theorem Span.Covers.append {s : Span} {slice : List Char} (h : s.Covers text slice)
    (more : List Char) : s.Covers (text ++ more) slice := by
  obtain ⟨before, after, rfl, hstart, hstop⟩ := h
  exact ⟨before, after ++ more, by simp, hstart, hstop⟩

theorem Token.OpensIn.append (h : t.OpensIn text) (more : List Char) : t.OpensIn (text ++ more) := by
  intro m hm
  obtain ⟨span, slice, opening, hspan, hcovers, hopens⟩ := h m hm
  exact ⟨span, slice, opening, hspan, hcovers.append more, hopens⟩

/-- The characters before the cursor are part of the whole text. -/
theorem Buffer.Placed.covers {b : Buffer} {before slice : List Char} (h : b.Placed)
    (hread : b.consumed.reverse = before ++ slice) :
    Span.Covers ⟨Position.start.after before, b.position⟩ b.toList slice := by
  refine ⟨before, b.unread, ?_, rfl, ?_⟩
  · rw [Buffer.toList, hread]
  · exact h.trans (by rw [hread])

theorem Lexer.Over.read {before : List Char} (h : Lexer.Over l v l')
    (hl : l.buffer.consumed.reverse = before ++ w) :
    l'.buffer.consumed.reverse = before ++ (w ++ v) := by
  rw [h.consumed, List.reverse_append, List.reverse_reverse, hl, List.append_assoc]

/-- The end of a text run finds one. -/
theorem Assembler.Receives.current_of_finishChars {stop : Position}
    (h : a.Receives [.finishChars stop] a') : ∃ text, a.current = some (.chars text) := by
  cases h with
  | @cons σ _ _ _ _ _ _ hholds hσ =>
      cases σ <;> cases hσ
      generalize a.current = current, a.pending = pending at hholds ⊢
      cases hholds
      exact ⟨_, rfl⟩

/-! ## The invariant -/

/-- The assembler is at the token that the lexer reads. -/
structure Marked (l : Lexer) (a : Assembler) : Prop where
  placed : l.buffer.Placed
  fits : l.Fits a
  onBrace : l.OnBrace
  marks : ∀ m, l.state.mark? = some m → a.tokenStart = l.marked m
  /-- What has been read since the last token was complete. -/
  begun : ∃ before w, l.buffer.consumed.reverse = before ++ w ∧
    a.tokenStart = Position.start.after before ∧ l.state.Opened a.current w
  tokens : a.trackLocations = true → ∀ t ∈ a.tokens, t.OpensIn l.buffer.toList

theorem Marked.start_of_between (h : Marked l a) (hs : l.state = .beforeData) :
    a.tokenStart = l.position := by
  obtain ⟨before, w, hconsumed, hstart, hopened⟩ := h.begun
  rw [hs] at hopened
  obtain rfl : w = [] := hopened
  rw [hstart, Lexer.position, h.placed, hconsumed, List.append_nil]

/-- Between two tokens nothing has been read of the next one. -/
theorem marked_of_between (hs : l.state = .beforeData) (hplaced : l.buffer.Placed)
    (hfits : l.Fits a) (hstart : a.tokenStart = l.position)
    (htokens : a.trackLocations = true → ∀ t ∈ a.tokens, t.OpensIn l.buffer.toList) :
    Marked l a where
  placed := hplaced
  fits := hfits
  onBrace h := by
    rw [hs] at h
    cases h
  marks m hm := by
    rw [hs] at hm
    cases hm
  begun := by
    refine ⟨l.buffer.consumed.reverse, [], by simp, hstart.trans hplaced, ?_⟩
    rw [hs]
    rfl
  tokens := htokens

theorem marked_start (track : Bool) : Marked {} { trackLocations := track } :=
  marked_of_between rfl Buffer.placed_empty (Lexer.fits_start track) rfl (by simp)

/-- More text behind what is unread changes nothing. -/
theorem Marked.receive (h : Marked l a) (text : String) : Marked (l.receive text) a where
  placed := h.placed.push _
  fits := h.fits
  onBrace := h.onBrace.receive text
  marks := h.marks
  begun := h.begun
  tokens htrack t ht := by
    rw [Lexer.receive, Lexer.toList_extend]
    exact (h.tokens htrack t ht).append _

/-! ## Steps -/

/-- A step that completes nothing. -/
theorem Marked.inside (h : Marked l a) (hstep : Lexer.Step resolve l es l') (hes : Unstopped es)
    (hnext : l'.state ≠ .beforeData) (ha : a.Receives es a') : Marked l' a' := by
  obtain ⟨htokens, hstart, htrack⟩ := ha.sameTokens hes
  obtain ⟨before, w, hconsumed, hbefore, hopened⟩ := h.begun
  obtain ⟨v, hover, hopened'⟩ := hstep.opened hes hnext ha hopened
  constructor
  case placed => exact hover.placed h.placed
  case fits => exact h.fits.step hstep ha
  case onBrace => exact hstep.onBrace
  case marks =>
    intro m hm
    rcases hstep.marked hes hm with ⟨hs, hmark⟩ | ⟨hs, hmark⟩
    · rw [hstart, hmark]
      exact h.start_of_between hs
    · rw [hstart, hmark]
      exact h.marks m hs
  case begun => exact ⟨before, w ++ v, hover.read hconsumed, hstart.trans hbefore, hopened'⟩
  case tokens =>
    rw [htrack, htokens, hstep.toList]
    exact h.tokens

/-- Events that complete a token at the place of `p`, which is a text run or has been opened. -/
theorem Marked.completes (h : Marked l a) (ha : a.Receives (es ++ [e]) a') (hes : Unstopped es)
    (hover : Lexer.Over l v p) (he : e.stop? = some p.position)
    (hkind : l.state.pastOpening = true ∨ ∃ stop, e = .finishChars stop) :
    a'.tokenStart = p.position ∧
      (a'.trackLocations = true → ∀ t ∈ a'.tokens, t.OpensIn p.buffer.toList) := by
  obtain ⟨before, w, hconsumed, hbefore, hopened⟩ := h.begun
  obtain ⟨a₁, hfirst, hlast⟩ := ha.of_append
  obtain ⟨htokens, hstart, htrack⟩ := hfirst.sameTokens hes
  obtain ⟨kind, hcurrent, rfl⟩ := hlast.complete he
  rw [Assembler.complete_of_some hcurrent]
  refine ⟨rfl, ?_⟩
  intro htracked t ht
  have htracked' : a₁.trackLocations = true := htracked
  rw [hover.toList]
  rcases Array.mem_push.mp ht with ht | rfl
  · rw [htokens] at ht
    exact h.tokens (htrack.symm.trans htracked) t ht
  · intro m hm
    rcases hkind with hpast | ⟨stop, rfl⟩
    · obtain ⟨k, o, hcurrent', hk, ho⟩ := hopened.receives hpast hes hfirst
      obtain rfl : k = kind := Option.some.inj (hcurrent'.symm.trans hcurrent)
      have hcovers := (hover.placed h.placed).covers (hover.read hconsumed)
      rw [hover.toList, ← hbefore, ← hstart] at hcovers
      have hopening : o <+: w ++ v := ho.trans (List.prefix_append w v)
      exact ⟨_, w ++ v, o, if_pos htracked', hcovers, (hk.text_prefix hm).trans hopening, hk,
        hopening⟩
    · obtain ⟨text, htext⟩ := hlast.current_of_finishChars
      obtain rfl : kind = .chars text := Option.some.inj (hcurrent.symm.trans htext)
      cases hm

/-- The last character of a token is taken. -/
theorem Marked.closes (h : Marked l a) (hstep : Lexer.Step resolve l (es ++ [e]) l')
    (hs : l'.state = .beforeData) (hes : Unstopped es) (he : e.stop? = some l'.position)
    (hpast : l.state.pastOpening = true) (ha : a.Receives (es ++ [e]) a') : Marked l' a' := by
  obtain ⟨v, hover⟩ := hstep.over
  obtain ⟨hstart, htokens⟩ := h.completes ha hes hover he (.inl hpast)
  exact marked_of_between hs (hover.placed h.placed) (h.fits.step hstep ha) hstart htokens

/-- A text run is complete before a character that opens a token, and the same step begins that token. -/
theorem Marked.opens {c : Char} {rest : List Char} (h : Marked l a)
    (hunread : l.buffer.unread = c :: rest)
    (hstep : Lexer.Step resolve l [.finishChars l.position] l')
    (hs : l.state = .data ∧ c = '<' ∨ l.state = .possibleExpressionOpen)
    (hs' : l'.state ≠ .beforeData) (hidle : l'.state.shape = .idle)
    (ha : a.Receives [.finishChars l.position] a') : Marked l' a' := by
  have hbrace : l.state = .data ∧ c = '<' ∨ l.state = .possibleExpressionOpen ∧ c = '{' := by
    refine hs.imp_right fun hs => ⟨hs, ?_⟩
    obtain ⟨more, hbrace⟩ := h.onBrace hs
    exact (List.cons.inj (hunread.symm.trans hbrace)).1
  have hreceives : a.Receives ([] ++ [.finishChars l.position]) a' := ha
  obtain ⟨hstart, htokens⟩ := h.completes hreceives .nil (.refl l) rfl (.inr ⟨_, rfl⟩)
  have hfits : ({ l with state := .beforeData } : Lexer).Fits a' := by
    have hnext := h.fits.step hstep ha
    rwa [Lexer.Fits, hidle] at hnext
  have hbetween : Marked { l with state := .beforeData } a' :=
    marked_of_between rfl h.placed hfits hstart htokens
  exact hbetween.inside (hstep.begins hbrace hunread) .nil hs' (.nil a')

theorem Marked.step (h : Marked l a) (hstep : Lexer.Step resolve l es l') (ha : a.Receives es a') :
    Marked l' a' := by
  obtain ⟨c, rest, n, hunread, -, hbuffer, heffect⟩ := hstep.effect
  generalize hnext : l'.state = next at heffect
  cases heffect with
  | inside hes hbetween => exact h.inside hstep hes (by rwa [hnext]) ha
  | closes hes he =>
      have hposition : l'.position = l.position.next c := by
        rw [Lexer.position, hbuffer]
        exact Buffer.position_advance_one hunread
      exact h.closes hstep hnext hes (hposition ▸ he) (hstep.pastOpening_of_between hnext) ha
  | opens hs hnext' =>
      have hidle : l'.state ≠ .beforeData ∧ l'.state.shape = .idle := by
        rw [hnext]
        rcases hnext' with rfl | rfl <;> exact ⟨by simp, rfl⟩
      exact h.opens hunread hstep hs hidle.1 hidle.2 ha

/-! ## Sessions -/

/-- The end of the input completes a text run. -/
theorem Marked.flush_text (h : Marked l a) (hrest : Lexer.Halts resolve l l none) (es : List Event)
    (hes : Unstopped es) (hevents : l.flush.events = es ++ [.finishChars l.flush.lexer.position])
    (hs : l.flush.lexer.state = .beforeData) (hfits : l.flush.lexer.Fits a')
    (ha : a.Receives l.flush.events a') : Marked l.flush.lexer a' := by
  have hover := hrest.over_flush
  rw [hevents] at ha
  obtain ⟨hstart, htokens⟩ := h.completes ha hes hover rfl (.inr ⟨_, rfl⟩)
  exact marked_of_between hs (hover.placed h.placed) hfits hstart htokens

/-- Markup stays as unfinished as it is, and of a declaration one more dash may be dropped. -/
theorem Marked.flush_markup (h : Marked l a) (hrest : Lexer.Halts resolve l l none)
    (hs : l.state ≠ .beforeData ∧ l.state ≠ .data ∧ l.state ≠ .possibleExpressionOpen)
    (hs' : l.flush.lexer.state = l.state) : Marked l.flush.lexer a := by
  have hover := hrest.over_flush
  obtain ⟨before, w, hconsumed, hbefore, hopened⟩ := h.begun
  constructor
  case placed => exact hover.placed h.placed
  case fits =>
    rw [Lexer.Fits, hs']
    exact h.fits
  case onBrace =>
    intro hopen
    exact absurd (hs'.symm.trans hopen) hs.2.2
  case marks =>
    intro m hm
    rw [Lexer.marked_flush]
    exact h.marks m (hs' ▸ hm)
  case begun =>
    refine ⟨before, w ++ l.buffer.unread, hover.read hconsumed, hbefore, ?_⟩
    rw [hs']
    rcases hrest.pauses h.onBrace with hunread | ⟨c, hunread, hpause⟩
    · rwa [hunread, List.append_nil]
    · have hdeclaration : l.state = .markupDeclaration := by
        simp only [List.mem_cons, Prod.mk.injEq, List.not_mem_nil, or_false] at hpause
        rcases hpause with ⟨hs', -⟩ | ⟨hs', -⟩ | ⟨hs', -⟩
        · exact absurd hs' hs.1
        · exact absurd hs' hs.2.2
        · exact hs'
      rw [hdeclaration] at hopened ⊢
      exact hopened.declaration _ _
  case tokens =>
    rw [hover.toList]
    exact h.tokens

theorem Marked.flush (h : Marked l a) (hrest : Lexer.Halts resolve l l none)
    (ha : a.Receives l.flush.events a') : Marked l.flush.lexer a' := by
  obtain ⟨a₁, ha₁, hfits⟩ := Assembler.receives_of_shape h.fits (Lexer.shape_of_flush l)
  obtain rfl : a₁ = a' := Except.ok.inj (ha₁.receiveAll.symm.trans ha.receiveAll)
  have hending := hrest.ending h.onBrace
  generalize hevents : l.flush.events = es, hs : l.state = s, hunread : l.buffer.unread = unread,
    hs' : l.flush.lexer.state = s' at hending
  cases hending with
  | braceAlone =>
      exact h.flush_text hrest [.beginChars, .appendChars "\x7b"] (by simp [Unstopped, Event.stop?])
        hevents hs' hfits ha
  | braceInText =>
      exact h.flush_text hrest [.appendChars "\x7b"] (by simp [Unstopped, Event.stop?])
        hevents hs' hfits ha
  | text => exact h.flush_text hrest [] .nil hevents hs' hfits ha
  | between =>
      obtain ⟨-, hlexer⟩ := Lexer.flush_of_settled hunread (by simp [hs])
      rw [hevents] at ha
      cases ha
      rwa [hlexer]
  | markup hne =>
      rw [hevents] at ha
      cases ha
      subst hs
      exact h.flush_markup hrest hne hs'

theorem Marked.session {earlier : List String} {calls : List Call} (h : Marked l a)
    (hread : Lexer.HasRead resolve earlier l) (he : (l.session resolve calls).error? = none)
    (ha : a.Receives (l.session resolve calls).events a') :
    Marked (l.session resolve calls).lexer a' :=
  hread.keeps (fun text h => h.receive text) (fun h hstep ha => h.step hstep ha)
    (fun h hrest ha => h.flush hrest ha) he ha h

/-! ## Replies -/

namespace Tokenizer

variable {options : Options} {d : Document}

/-- The next token starts at the mark of the token that the lexer is in the middle of, and between two
tokens at the cursor. -/
structure StartsAgree (t : Tokenizer) : Prop where
  marks : ∀ m, t.lexer.state.mark? = some m → t.assembler.tokenStart = t.lexer.marked m
  between : t.lexer.state = .beforeData → t.assembler.tokenStart = t.lexer.position

/-- The document at hand decides where its tokens start. -/
theorem startsAgree_of_current {t : Tokenizer} (h : d.Current resolve options t) :
    t.StartsAgree ∧ (options.trackLocations = true →
      ∀ token ∈ d.yielded, token.OpensIn t.lexer.buffer.toList) := by
  obtain ⟨hreplay, rfl⟩ := h
  rw [replay_eq_session] at hreplay
  have hready := ready_ofOptions options
  have he := error?_of_outcome hready hreplay
  obtain ⟨a, ha, hout, htokenizer⟩ := session_of_ok hready he
  have hyielded : a.tokens.toList = d.yielded := Except.ok.inj (hout.symm.trans hreplay)
  have hmarked := (marked_start options.trackLocations).session Lexer.hasRead_nil he ha
  rw [htokenizer]
  refine ⟨⟨hmarked.marks, hmarked.start_of_between⟩, ?_⟩
  intro htrack token htoken
  rw [← hyielded, Array.mem_toList_iff] at htoken
  exact hmarked.tokens (ha.trackLocations.trans htrack) token htoken

theorem starts_of_current {t : Tokenizer} (h : d.Current resolve options t)
    (requests : List Request) : ∀ reply ∈ t.replies resolve requests,
      reply.tokenizer.StartsAgree ∧ ∀ tokens, options.trackLocations = true →
        reply.outcome = .ok tokens → ∀ token ∈ tokens,
          token.OpensIn reply.tokenizer.lexer.buffer.toList := by
  induction requests generalizing t d with
  | nil => simp [replies]
  | cons request requests ih =>
      obtain ⟨-, hcurrent⟩ := respond_of_current h request
      intro reply hreply
      rcases List.mem_cons.mp hreply with rfl | hlater
      · obtain ⟨hagree, hopens⟩ := startsAgree_of_current hcurrent
        refine ⟨hagree, ?_⟩
        intro tokens htrack hout token htoken
        refine hopens htrack token ?_
        rw [hout]
        exact List.mem_append_right _ htoken
      · exact ih hcurrent reply hlater

/-- **Where tokens start.** Whatever a new tokenizer is asked, the lexer and the assembler agree on the
place where the next token starts. So with locations every token that is handed out covers a part of the
document that begins with its opening: a tag or a comment with a `<`, an expression with two braces, in
front of whatever was dropped. -/
theorem starts_agree (resolve : Resolver) (options : Options) (requests : List Request) :
    (ofOptions options).StartsAgree ∧
      ∀ reply ∈ (ofOptions options).replies resolve requests,
        reply.tokenizer.StartsAgree ∧ ∀ tokens, options.trackLocations = true →
          reply.outcome = .ok tokens → ∀ token ∈ tokens,
            token.OpensIn reply.tokenizer.lexer.buffer.toList := by
  have hnew : ({} : Document).Current resolve options (ofOptions options) := current_new
  exact ⟨(startsAgree_of_current hnew).1, starts_of_current hnew requests⟩

/-- A tag and an expression that interrupt text runs, with characters dropped behind their openings and an
end of the input in the middle of each. -/
theorem starts_agree_interrupted :
    let requests : List Request := [.reset, .call (.part "a<"), .call .eof,
      .call (.part "1b>c\x7b"), .call (.part "\x7b #"), .call .eof, .call (.part "2d\x7d\x7d")]
    let tag : Token := ⟨.startTag "b" [] false, some ⟨⟨1, 1⟩, ⟨1, 5⟩⟩⟩
    let expression : Token := ⟨.startExpression "d" [] true, some ⟨⟨1, 6⟩, ⟨1, 14⟩⟩⟩
    let replies := (ofOptions ⟨true⟩).replies Reference.standard requests
    (∃ reply ∈ replies, reply.outcome = .ok [tag]) ∧
      (∃ reply ∈ replies, reply.outcome = .ok [expression]) ∧
      tag.OpensIn "a<1b>c\x7b".toList ∧
      expression.OpensIn "a<1b>c\x7b\x7b #2d\x7d\x7d".toList := by
  intro requests tag expression replies
  have htag : ∃ reply ∈ replies, reply.outcome = .ok [tag] ∧
      reply.tokenizer.lexer.buffer.toList = "a<1b>c\x7b".toList := by
    decide +kernel
  have hexpression : ∃ reply ∈ replies, reply.outcome = .ok [expression] ∧
      reply.tokenizer.lexer.buffer.toList = "a<1b>c\x7b\x7b #2d\x7d\x7d".toList := by
    decide +kernel
  have hopens := (starts_agree Reference.standard ⟨true⟩ requests).2
  obtain ⟨reply, hreply, hout, htext⟩ := htag
  obtain ⟨reply', hreply', hout', htext'⟩ := hexpression
  refine ⟨⟨reply, hreply, hout⟩, ⟨reply', hreply', hout'⟩, ?_, ?_⟩
  · rw [← htext]
    exact (hopens reply hreply).2 _ rfl hout tag (by simp)
  · rw [← htext']
    exact (hopens reply' hreply').2 _ rfl hout' expression (by simp)

end Tokenizer

end TemplateMarkup
