import TemplateMarkup.Proofs.Lexer.Braces
import TemplateMarkup.Proofs.Tokenizer.Chunking
import TemplateMarkup.Proofs.Tokenizer.Composition
import TemplateMarkup.Proofs.Tokenizer.Documents

/-!
# Plain texts in chunks

A text with no `<`, no `&` and no two braces in a row is one token, however it is cut into chunks: also
where a chunk ends in a brace, of which nothing is known before the next character is there. None of
the chunks yields the token, the end of the input does (`plain_text_in_chunks`).
-/

namespace TemplateMarkup

variable {resolve : Resolver} {chunks : List String}

/-- Where there is no `&` no reference can be cut. -/
theorem Reference.not_cutsReference_of_notMem {before after : List Char} (h : '&' ∉ before) :
    ¬ CutsReference resolve before after := by
  rintro ⟨opened, htails, hhead, -⟩
  have hsuffix := (List.mem_tails _ _).mp htails
  exact h (hsuffix.mem (List.mem_of_head? hhead))

theorem Lexer.keepsReferences_of_notMem
    (h : '&' ∉ LineEnding.fold false (String.join chunks).toList) : KeepsReferences resolve chunks :=
  fun _ _ => Reference.not_cutsReference_of_notMem fun hmem => h (List.mem_of_mem_take hmem)

namespace Tokenizer

/-- The chunks of a text run that only the end of the input completes yield nothing, and the end of the
input yields the text. -/
theorem finish_of_endsAsText {text : List Char} (hkeeps : Lexer.KeepsReferences resolve chunks)
    (hne : text ≠ []) (hends : Lexer.EndsAsText resolve (Lexer.receive {} (String.join chunks))
      [.beginChars] text) (options : Options) :
    let fed := (ofOptions options).session resolve (chunks.map .part)
    let span := Span.mk .start (Position.start.after text)
    fed.outcome = .ok [] ∧
      fed.tokenizer.finish.outcome = .ok (some ⟨.chars (String.ofList text),
        if options.trackLocations then some span else none⟩) := by
  intro fed span
  obtain ⟨es, m, pieces, hreads, hes, hevents, hpieces⟩ := hends
  obtain ⟨hfeed, hlexer, herror⟩ := Lexer.feed_of_reads hreads
  have hagrees : ((ofOptions options).lexer.session resolve (chunks.map .part)).Agrees
      (Lexer.feed resolve {} (String.join chunks)) :=
    Lexer.session_agrees_feed Lexer.hasRead_nil hkeeps
  obtain ⟨a, ha, hout, htokenizer⟩ :=
    session_of_ok (ready_ofOptions options) (hagrees.error?.trans herror)
  rw [hagrees.events, hfeed] at ha
  rw [hagrees.lexer herror, hlexer] at htokenizer
  have hnone : a.tokens = #[] := (ha.sameTokens hes).tokens
  have hfed : fed.tokenizer = ⟨m, a⟩ := by
    rw [htokenizer, ← hnone]
  -- with the end of the input the events are those of one text
  have hpieces_ne : pieces ≠ [] := by
    rintro rfl
    exact hne (by simpa using hpieces.symm)
  let run : Construct := .text pieces hpieces_ne (Position.start.after text)
  have hrun : es ++ m.flush.events = [run].flatMap Construct.events := by
    rw [hevents]
    simp [run, Construct.events, Lexer.position, Lexer.receive, Lexer.extend]
    rfl
  obtain ⟨a', ha', htokens, -⟩ := Assembler.receiveAll_flatMap_events
    (a := (ofOptions options).assembler) rfl [run]
  rw [← hrun, Assembler.receiveAll_append_of_ok ha.receiveAll] at ha'
  refine ⟨by rw [hout, hnone], ?_⟩
  rw [hfed]
  simp [finish, ha', Assembler.takeTokens, htokens, run, Construct.token, Construct.kind,
    Construct.stop, hpieces, ofOptions, span]

/-- **Plain texts in chunks.** -/
theorem plain_text_in_chunks (resolve : Resolver) (options : Options)
    (hne : String.join chunks ≠ "") (htag : '<' ∉ (String.join chunks).toList)
    (hamp : '&' ∉ (String.join chunks).toList)
    (hbraces : ¬['{', '{'] <:+: (LineEnding.normalize (String.join chunks)).toList) :
    let text := LineEnding.normalize (String.join chunks)
    let fed := (ofOptions options).session resolve (chunks.map .part)
    let span := Span.mk .start (Position.start.after text.toList)
    let token := Token.mk (.chars text) (if options.trackLocations then some span else none)
    fed.outcome = .ok [] ∧ fed.tokenizer.finish.outcome = .ok (some token) ∧
      ((ofOptions options).tokenizeChunks resolve chunks).outcome = .ok [token] := by
  intro text fed span token
  have htext : text.toList = LineEnding.fold false (String.join chunks).toList :=
    String.toList_ofList
  have hplain : Lexer.Plain text.toList := by
    refine ⟨fun h => htag ?_, fun h => hamp ?_, hbraces⟩ <;>
      exact LineEnding.mem_of_mem_fold (htext ▸ h) (by decide)
  have hne' : text.toList ≠ [] := by
    rw [htext]
    exact LineEnding.fold_ne_nil (mt String.toList_eq_nil_iff.mp hne)
  have hends : Lexer.EndsAsText resolve (Lexer.receive {} (String.join chunks)) [.beginChars]
      text.toList :=
    Lexer.endsAsText_of_beforeData rfl (by rw [Lexer.unread_receive, htext]) hne' hplain
  have hkeeps : Lexer.KeepsReferences resolve chunks :=
    Lexer.keepsReferences_of_notMem (htext ▸ hplain.reference)
  obtain ⟨hparts, hlast⟩ := finish_of_endsAsText hkeeps hne' hends options
  rw [String.ofList_toList] at hlast
  have hcall : (fed.tokenizer.call resolve .eof).outcome = .ok [token] := by
    change fed.tokenizer.finish.outcome.map (·.toList) = _
    rw [hlast]
    rfl
  refine ⟨hparts, hlast, ?_⟩
  rw [tokenizeChunks_outcome, (session_concat .eof hparts).1, hcall]
  rfl

/-- A brace at the end of one chunk with a line feed behind a return in the next, and a brace that only
the end of the input settles. -/
theorem plain_text_in_chunks_of_braces :
    let chunks := ["\x7b", "a\x7b\r", "", "\n\x7d\x7b"]
    let span := Span.mk .start ⟨2, 2⟩
    let token := Token.mk (.chars "\x7ba\x7b\n\x7d\x7b") (some span)
    let fed := (ofOptions ⟨true⟩).session Reference.standard (chunks.map .part)
    String.join chunks ≠ "" ∧ '<' ∉ (String.join chunks).toList ∧
      '&' ∉ (String.join chunks).toList ∧
      ¬['{', '{'] <:+: (LineEnding.normalize (String.join chunks)).toList ∧
      fed.outcome = .ok [] ∧ fed.tokenizer.finish.outcome = .ok (some token) := by
  intro chunks span token fed
  have hne : String.join chunks ≠ "" := by decide
  have htag : '<' ∉ (String.join chunks).toList := by decide
  have hamp : '&' ∉ (String.join chunks).toList := by decide
  have hbraces : ¬['{', '{'] <:+: (LineEnding.normalize (String.join chunks)).toList := by decide
  obtain ⟨hparts, hlast, -⟩ :=
    plain_text_in_chunks Reference.standard ⟨true⟩ hne htag hamp hbraces
  have htext : LineEnding.normalize (String.join chunks) = "\x7ba\x7b\n\x7d\x7b" := by decide +kernel
  have hstop : Position.start.after "\x7ba\x7b\n\x7d\x7b".toList = ⟨2, 2⟩ := by decide +kernel
  rw [htext, hstop, if_pos rfl] at hlast
  exact ⟨hne, htag, hamp, hbraces, hparts, hlast⟩

end Tokenizer

end TemplateMarkup
