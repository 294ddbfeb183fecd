import TemplateMarkup.Proofs.Tokenizer.Session

/-!
# Documents in chunks

A document may come in chunks of any size, cut anywhere except inside a reference that is known.
The lexer reports the same events and rejects the same character, and the tokenizer yields the same
tokens, as if the document had come whole (`tokenizeChunks_eq_tokenize`).
-/

namespace TemplateMarkup

open Lexer (KeepsReferences)

variable {resolve : Resolver} {chunks : List String}

/-- The end of the input is never an error. -/
theorem Lexer.session_document {text : String} (h : (feed resolve {} text).error? = none) :
    (session resolve {} [.part text, .eof]).error? = none ∧
      (session resolve {} [.part text, .eof]).events =
        (feed resolve {} text).events ++ (feed resolve {} text).lexer.flush.events := by
  have hcall : (call resolve {} (.part text)).error? = none := h
  have herror : (session resolve {} [.part text, .eof]).error? = none := by
    rw [session_cons, Scan.andThen_of_ok hcall]
    rfl
  obtain ⟨-, -, -, hevents⟩ := session_cons_of_ok herror
  rw [events_session_eof] at hevents
  exact ⟨herror, hevents⟩

/-- The chunks and the end of the input, against the whole text and the end of the input. -/
theorem Lexer.session_agrees_document (h : KeepsReferences resolve chunks) :
    (session resolve {} (chunks.map .part ++ [.eof])).Agrees
      (session resolve {} [.part (String.join chunks), .eof]) := by
  have hparts : (session resolve {} (chunks.map .part)).Agrees
      (feed resolve {} (String.join chunks)) :=
    session_agrees_feed hasRead_nil h
  rw [session_append]
  exact hparts.andThen fun _ => .refl _

namespace Tokenizer

/-- Cutting a document into chunks changes neither what the lexer reports nor the tokens. -/
theorem tokenizeChunks_eq_tokenize (h : KeepsReferences resolve chunks) :
    (Lexer.session resolve {} (chunks.map .part)).Agrees
        (Lexer.feed resolve {} (String.join chunks)) ∧
      ∀ options : Options,
        ((ofOptions options).tokenizeChunks resolve chunks).outcome =
            ((ofOptions options).tokenize resolve (String.join chunks)).outcome ∧
          ((Lexer.feed resolve {} (String.join chunks)).error? = none →
            ∃ tokens, ((ofOptions options).tokenize resolve (String.join chunks)).outcome =
              .ok tokens) := by
  refine ⟨Lexer.session_agrees_feed Lexer.hasRead_nil h, ?_⟩
  intro options
  have hready := ready_ofOptions options
  constructor
  · rw [tokenizeChunks_outcome, tokenize_outcome]
    exact session_outcome_congr hready (Lexer.session_agrees_document h)
  · intro he
    obtain ⟨hsession, -⟩ := Lexer.session_document he
    obtain ⟨a, -, hout, -⟩ := session_of_ok hready hsession
    rw [tokenize_outcome]
    exact ⟨_, hout⟩

/-- A line ending, an expression and an unknown reference may be cut, a known reference not. -/
theorem tokenizeChunks_of_cut_pairs :
    KeepsReferences Reference.standard ["a\r", "", "\n&lt;b\x7b", "\x7bc\x7d", "\x7d&am", "x;"] ∧
      ((ofOptions ⟨true⟩).tokenizeChunks Reference.standard
          ["a\r", "", "\n&lt;b\x7b", "\x7bc\x7d", "\x7d&am", "x;"]).outcome =
        ((ofOptions ⟨true⟩).tokenize Reference.standard
          (String.join ["a\r", "", "\n&lt;b\x7b", "\x7bc\x7d", "\x7d&am", "x;"])).outcome ∧
      ¬ KeepsReferences Reference.standard ["&l", "t;"] := by
  have hkeeps : KeepsReferences Reference.standard
      ["a\r", "", "\n&lt;b\x7b", "\x7bc\x7d", "\x7d&am", "x;"] := by
    decide
  exact ⟨hkeeps, ((tokenizeChunks_eq_tokenize hkeeps).2 ⟨true⟩).1, by decide⟩

end Tokenizer

end TemplateMarkup
