import TemplateMarkup.Proofs.Lexer.Rejection
import TemplateMarkup.Proofs.Tokenizer.Chunking

/-!
# Rejected documents

If the names of the known references hold no brace, a document is rejected as soon as its text goes
wrong (`rejected_at_shortest_prefix`): every shorter beginning of the text is a document, and
nothing that follows can mend it. The error says where the expression opens and which character is
wrong.
-/

namespace TemplateMarkup

open Position (atOffset)

/-- The error is about the character before the offset `p`, in an expression that two braces at the
offset `k` open. -/
structure SyntaxError.Locates (e : SyntaxError) (text : List Char) (k p : Nat) : Prop where
  lt : k + 2 < p
  le : p ≤ text.length
  braces : (text.drop k).take 2 = ['\x7b', '\x7b']
  start : e.expressionStart = atOffset text k
  stop : e.position = atOffset text p
  found : text[p - 1]? = some e.cause.found

variable {resolve : Resolver} {text : List Char} {e : SyntaxError} {es : List Event} {r : Bool}

/-- The text up to the rejected character decides that it is rejected. -/
theorem Lexer.Reads.locates {l' : Lexer} (hresolve : resolve.BraceFree)
    (h : Reads resolve (extend {} text r) es l' (some e)) :
    ∃ k p, e.Locates text k p ∧ ∀ text', text.take p <+: text' → ∀ r', ∃ es l'',
      Reads resolve (extend {} text' r') es l'' (some e) := by
  obtain ⟨v, w, c, x, rfl, hstart, hstop, hfound, hall⟩ := h.rejected hresolve
  refine ⟨v.length, (v ++ '\x7b' :: '\x7b' :: w ++ [c]).length, ⟨?_, ?_, ?_, ?_, ?_, ?_⟩, ?_⟩
  · simp
  · simp
  · simp
  · simp [hstart, atOffset]
  · rw [hstop, Position.atOffset_length_append]
  · simp [hfound]
  · rw [List.take_left]
    rintro text' ⟨y, rfl⟩ r'
    exact hall y r'

/-- The text before the rejected character is not rejected. -/
theorem Lexer.Reads.shortest {l' : Lexer} {k p : Nat} (hresolve : resolve.BraceFree)
    (h : Reads resolve (extend {} text r) es l' (some e)) (he : e.Locates text k p) {q : Nat}
    (hq : q < p) {r' : Bool} {es' : List Event} {m : Lexer} {error? : Option SyntaxError}
    (h' : Reads resolve (extend {} (text.take q) r') es' m error?) : error? = none := by
  cases error? with
  | none => rfl
  | some e' =>
      exfalso
      obtain ⟨k', p', he', hall⟩ := h'.locates hresolve
      have hp' : p' ≤ q := he'.le.trans (List.length_take_le q text)
      have htake : (text.take q).take p' = text.take p' := by
        rw [List.take_take, Nat.min_eq_left hp']
      -- the whole text begins with what is rejected already
      obtain ⟨es'', l'', hwhole⟩ := hall text (htake ▸ List.take_prefix p' text) r
      obtain ⟨-, -, hsome⟩ := run_of_reads h
      obtain ⟨-, -, hsome'⟩ := run_of_reads hwhole
      obtain rfl : e = e' := Option.some.inj (hsome.symm.trans hsome')
      have hbefore := Position.atOffset_before (hp'.trans_lt hq) he.le
      apply hbefore.ne
      rw [← he.stop, he'.stop, atOffset, atOffset, htake]

namespace Tokenizer

/-! ## Documents -/

/-- A document fails where the lexer rejects it, and nowhere else. -/
theorem tokenize_outcome_of_feed (resolve : Resolver) (t : Tokenizer) (document : String) :
    (∃ tokens, (t.tokenize resolve document).outcome = .ok tokens ∧
        (Lexer.feed resolve {} document).error? = none) ∨
      ∃ e, (t.tokenize resolve document).outcome = .error (.rejected e) ∧
        (Lexer.feed resolve {} document).error? = some e := by
  rw [tokenize_outcome]
  cases he : (Lexer.feed resolve {} document).error? with
  | none =>
      obtain ⟨hsession, -⟩ := Lexer.session_document he
      obtain ⟨a, -, hout, -⟩ := session_of_ok (ready_reset t) hsession
      exact Or.inl ⟨_, hout, rfl⟩
  | some e =>
      have hcall : (Lexer.call resolve {} (.part document)).error? = some e := he
      have hsession : (Lexer.session resolve {} [.part document, .eof]).error? = some e := by
        rw [Lexer.session_cons, Scan.andThen_of_error hcall, hcall]
      exact Or.inr ⟨e, session_of_error (ready_reset t) hsession, rfl⟩

variable {document : String} {l' : Lexer}

/-- A document is rejected with the error of its text. -/
theorem tokenize_of_rejected (h : Lexer.Reads resolve (Lexer.receive {} document) es l' (some e))
    (t : Tokenizer) : (t.tokenize resolve document).outcome = .error (.rejected e) := by
  obtain ⟨-, -, he⟩ := Lexer.feed_of_reads h
  rcases tokenize_outcome_of_feed resolve t document with ⟨tokens, -, hnone⟩ | ⟨e', hout, hsome⟩
  · cases he.symm.trans hnone
  · obtain rfl := Option.some.inj (he.symm.trans hsome)
    exact hout

/-- No beginning of the text is rejected that ends before the rejected character. -/
theorem tokenize_take (hresolve : resolve.BraceFree)
    (h : Lexer.Reads resolve (Lexer.receive {} document) es l' (some e)) {k p q : Nat}
    (he : e.Locates (LineEnding.fold false document.toList) k p) (hq : q < p) (t : Tokenizer) :
    ∃ tokens,
      (t.tokenize resolve
        (String.ofList ((LineEnding.fold false document.toList).take q))).outcome = .ok tokens := by
  generalize hshort : String.ofList ((LineEnding.fold false document.toList).take q) = short
  rcases tokenize_outcome_of_feed resolve t short with ⟨tokens, hout, -⟩ | ⟨e', -, he'⟩
  · exact ⟨tokens, hout⟩
  · have hreads := Lexer.reads_feed resolve {} short
    rw [he', ← hshort, Lexer.receive, String.toList_ofList, LineEnding.fold_take_fold] at hreads
    cases h.shortest hresolve he hq hreads

/-- **Errors are exact.** A document that fails is rejected at a character of its text: no shorter
beginning of the text fails, and all that begins like the text up to that character fails alike.
Where no two braces follow each other nothing is rejected. -/
theorem rejected_at_shortest_prefix :
    Resolver.BraceFree Reference.standard ∧
      ∀ resolve : Resolver, resolve.BraceFree → ∀ (t : Tokenizer) (document : String),
        let text := LineEnding.fold false document.toList
        (∀ f, (t.tokenize resolve document).outcome = .error f →
          ∃ e k p, f = .rejected e ∧ e.Locates text k p ∧
            (∀ q < p, ∃ tokens,
              (t.tokenize resolve (String.ofList (text.take q))).outcome = .ok tokens) ∧
            ∀ more : String,
              (t.tokenize resolve (String.ofList (text.take p) ++ more)).outcome =
                .error (.rejected e)) ∧
        (¬ ['\x7b', '\x7b'] <:+: text →
          ∃ tokens, (t.tokenize resolve document).outcome = .ok tokens) := by
  refine ⟨braceFree_standard, ?_⟩
  intro resolve hresolve t document text
  rcases tokenize_outcome_of_feed resolve t document with ⟨tokens, hout, -⟩ | ⟨e, hout, he⟩
  · refine ⟨?_, fun _ => ⟨tokens, hout⟩⟩
    intro f hf
    cases hout.symm.trans hf
  · have hreads := Lexer.reads_feed resolve {} document
    rw [he] at hreads
    obtain ⟨k, p, hlocates, hall⟩ := hreads.locates hresolve
    constructor
    · intro f hf
      obtain rfl := Except.error.inj (hout.symm.trans hf)
      refine ⟨e, k, p, rfl, hlocates, ?_, ?_⟩
      · intro q hq
        exact tokenize_take hresolve hreads hlocates hq t
      · intro more
        have hprefix : text.take p <+:
            LineEnding.fold false (String.ofList (text.take p) ++ more).toList := by
          rw [String.toList_append, String.toList_ofList, LineEnding.fold_append,
            LineEnding.fold_take_fold]
          exact List.prefix_append _ _
        obtain ⟨es', l', hlonger⟩ := hall _ hprefix
          (LineEnding.endsInReturn false (String.ofList (text.take p) ++ more).toList)
        exact tokenize_of_rejected hlonger t
    · intro hpair
      exfalso
      apply hpair
      rw [← hlocates.braces]
      exact (List.take_prefix 2 _).isInfix.trans (List.drop_suffix k text).isInfix

/-- The `b` is wrong whatever follows it, be it a `;` for the `&`. A single brace is never wrong. -/
theorem rejected_at_shortest_prefix_unpaired :
    let t := ofOptions ⟨false⟩
    let document := "&lt\r\n\x7b\x7ba\x7db\x7d\x7d"
    let e : SyntaxError := ⟨.unpairedBrace 'b', ⟨2, 5⟩, ⟨2, 0⟩⟩
    (t.tokenize Reference.standard document).outcome = .error (.rejected e) ∧
      (∃ k p, e.Locates (LineEnding.fold false document.toList) k p ∧
        ∀ more : String,
          (t.tokenize Reference.standard
            (String.ofList ((LineEnding.fold false document.toList).take p) ++ more)).outcome =
              .error (.rejected e)) ∧
      ∃ tokens, (t.tokenize Reference.standard "\x7b \x7b<a b=\x7b>").outcome = .ok tokens := by
  intro t document e
  obtain ⟨hstandard, hexact⟩ := rejected_at_shortest_prefix
  have hout : (t.tokenize Reference.standard document).outcome = .error (.rejected e) := by
    decide +kernel
  refine ⟨hout, ?_, ?_⟩
  · obtain ⟨e', k, p, he', hlocates, -, hlonger⟩ :=
      (hexact Reference.standard hstandard t document).1 _ hout
    obtain rfl := Failure.rejected.inj he'
    exact ⟨k, p, hlocates, hlonger⟩
  · exact (hexact Reference.standard hstandard t "\x7b \x7b<a b=\x7b>").2 (by decide +kernel)

end Tokenizer

end TemplateMarkup
