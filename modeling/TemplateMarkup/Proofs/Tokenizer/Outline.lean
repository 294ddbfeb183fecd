import TemplateMarkup.Proofs.Lexer.References
import TemplateMarkup.Proofs.Tokenizer.Chunking

/-!
# The outline of a document

With the standard references a document may be cut anywhere, be it inside a reference or a line
ending: only the text of runs and of attribute values can change (`tokenizeChunks_outline`).
-/

namespace TemplateMarkup

variable {resolve : Resolver} {t : Tokenizer}

/-- Lexers that report the same but for text yield the same tokens but for text. -/
theorem Tokenizer.session_outline_congr (h : t.Ready) {calls calls' : List Call}
    (herror : (t.lexer.session resolve calls).error? = (t.lexer.session resolve calls').error?)
    (hevents : skeleton (t.lexer.session resolve calls).events =
      skeleton (t.lexer.session resolve calls').events) :
    (t.session resolve calls).outcome.map (·.map Token.outline) =
      (t.session resolve calls').outcome.map (·.map Token.outline) := by
  cases he : (t.lexer.session resolve calls').error? with
  | some e => rw [session_of_error h (herror.trans he), session_of_error h he]
  | none =>
      obtain ⟨a, ha, hout, -⟩ := session_of_ok h (herror.trans he)
      obtain ⟨a', ha', hout', -⟩ := session_of_ok h he
      have houtline := ha.outline
      rw [hevents, ha'.outline] at houtline
      have htokens : a'.tokens.map Token.outline = a.tokens.map Token.outline :=
        congrArg Assembler.tokens (Except.ok.inj houtline)
      rw [hout, hout', Except.map, Except.map, ← Array.toList_map, ← Array.toList_map, htokens]

/-- The chunks of a document and the whole of it, read with the standard references. -/
theorem Lexer.session_skeleton_document (chunks : List String) :
    (session Reference.standard {} (chunks.map .part ++ [.eof])).error? =
        (session Reference.standard {} [.part (String.join chunks), .eof]).error? ∧
      skeleton (session Reference.standard {} (chunks.map .part ++ [.eof])).events =
        skeleton (session Reference.standard {} [.part (String.join chunks), .eof]).events := by
  obtain ⟨herror, hevents⟩ := session_blind plain_standard {} (chunks.map .part ++ [.eof])
  obtain ⟨herror', hevents'⟩ := session_blind plain_standard {} [.part (String.join chunks), .eof]
  have hagrees := session_agrees_document (keepsReferences_blind chunks)
  rw [← herror, ← hevents, ← herror', ← hevents', hagrees.error?, hagrees.events]
  exact ⟨rfl, rfl⟩

/-- Cutting a document anywhere changes the text of its tokens at the most: it fails in chunks where
it fails as a whole, with the same error, and yields tokens of the same outlines. -/
theorem tokenizeChunks_outline (options : Options) (chunks : List String) :
    ((Tokenizer.ofOptions options).tokenizeChunks Reference.standard chunks).outcome.map
          (·.map Token.outline) =
        (tokenize (String.join chunks) options).map (·.map Token.outline) ∧
      ((∃ tokens, tokenize (String.join chunks) options = .ok tokens) ∨
        ∃ e, tokenize (String.join chunks) options = .error (.rejected e)) := by
  have hwhole : tokenize (String.join chunks) options =
      ((Tokenizer.ofOptions options).session Reference.standard
        [.part (String.join chunks), .eof]).outcome :=
    Tokenizer.tokenize_outcome _ _
  have hready := Tokenizer.ready_ofOptions options
  rw [hwhole, Tokenizer.tokenizeChunks_outcome]
  constructor
  · obtain ⟨herror, hevents⟩ := Lexer.session_skeleton_document chunks
    exact Tokenizer.session_outline_congr hready herror hevents
  · cases he : (Lexer.session Reference.standard {} [.part (String.join chunks), .eof]).error? with
    | some e => exact Or.inr ⟨e, Tokenizer.session_of_error hready he⟩
    | none =>
        obtain ⟨a, -, hout, -⟩ := Tokenizer.session_of_ok hready he
        exact Or.inl ⟨_, hout⟩

end TemplateMarkup
