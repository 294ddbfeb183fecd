import TemplateMarkup.Proofs.Assembler.Variants
import TemplateMarkup.Proofs.Tokenizer.Composition

/-!
# Documents that begin otherwise

Two documents of which the same text is left, where the one holds a token and the other a related one,
come to the same but for their first tokens, and these are related (`Cut.verdict_variant`).
-/

namespace TemplateMarkup

/-- The same but for the first token, which is not there in either or is related to the other. -/
inductive Verdict.Variant (R : TokenKind → TokenKind → Prop) : Verdict → Verdict → Prop
  | rejected (cause : SyntaxError.Cause) : Variant R (.error (some cause)) (.error (some cause))
  | nothing : Variant R (.ok []) (.ok [])
  | first {k k' : TokenKind} (hk : R k k') (later : List TokenKind) :
      Variant R (.ok (k :: later)) (.ok (k' :: later))

variable {R : TokenKind → TokenKind → Prop} {resolve : Resolver}

/-- Where there is a first token, the other one is related to it. -/
theorem Verdict.Variant.of_first {k : TokenKind} {later : List TokenKind} {v : Verdict}
    (h : Variant R (.ok (k :: later)) v) : ∃ k', R k k' ∧ v = .ok (k' :: later) := by
  cases h with
  | first hk => exact ⟨_, hk, rfl⟩

/-- **The same rest of a document, behind another beginning of its first token.** -/
theorem Lexer.Cut.verdict_variant {l m : Lexer} {a b : Assembler} (hR : TokenKind.Simulates R)
    (hcut : Cut [] l m) (hfits : l.Fits a) (hvariant : a.Variant R b) (ha : a.kinds = [])
    (hb : b.kinds = []) : Verdict.Variant R (l.verdict resolve a) (m.verdict resolve b) := by
  rcases hcut.verdicts resolve hfits b with
    ⟨cause, hl, hm⟩ | ⟨es, es', a', hes, halike, hl, hm⟩
  · rw [hl, hm]
    exact .rejected cause
  · obtain ⟨b', hb', hkinds⟩ := hes.variant hR hvariant halike
    rw [hl, hm b' hb']
    rcases hkinds with ⟨hkinds, hkinds'⟩ | ⟨k, k', new, hk, hkinds, hkinds'⟩
    · rw [hkinds, hkinds', ha, hb]
      exact .nothing
    · rw [hkinds, hkinds', ha, hb]
      exact .first hk new

/-- Two openings that lead to the same state, in front of the same text. -/
theorem Tokenizer.verdict_variant_of_openings {w w' : List Char} {es es' : List Event} {s : State}
    {k k' : TokenKind} (hR : TokenKind.Simulates R) (hk : R k k')
    (h : Lexer.Passes resolve .beforeData w es s) (h' : Lexer.Passes resolve .beforeData w' es' s)
    (hw : '\r' ∉ w) (hw' : '\r' ∉ w')
    {options : Options} (hes : (fresh options).receiveAll es = .ok ((fresh options).holding k none))
    (hes' : (fresh options).receiveAll es' = .ok ((fresh options).holding k' none))
    (hholds : Assembler.Holds s.shape (some k) none) (rest : String) :
    Verdict.Variant R (verdict resolve options (String.ofList w ++ rest))
      (verdict resolve options (String.ofList w' ++ rest)) := by
  obtain ⟨l, m, hsteps, hsteps', hl, hcut⟩ := Lexer.cut_of_openings h h' hw hw' rest
  rw [verdict_of_steps hsteps hes, verdict_of_steps hsteps' hes']
  refine hcut.verdict_variant hR ?_ ⟨⟨k, k', hk, rfl, rfl⟩, rfl⟩ rfl rfl
  rw [Lexer.Fits, hl]
  exact hholds

end TemplateMarkup
