import Mathlib.Data.List.DropRight
import TemplateMarkup.Proofs.Lexer.Session
import TemplateMarkup.Proofs.Text.Pieces

/-!
# The text of a lexer

Whatever is done to a lexer, its text is the chunks that it was fed since the last reset, with the
line endings folded as in one text (`buffered_eq_normalize`). What carries this through the chunks
is that the lexer remembers a return exactly as long as the chunks end in one: an empty chunk leaves
it to be remembered, and a line feed, kept or not, ends it.
-/

namespace TemplateMarkup

/-- The chunk that the operation feeds, if it does. -/
def Operation.chunk? : Operation → Option String
  | .call (.part text) => some text
  | .call .eof => none
  | .reset => none

/-- The chunks fed after the last reset. -/
def chunksFed (ops : List Operation) : List String :=
  (ops.rtakeWhile (· != .reset)).filterMap Operation.chunk?

theorem chunksFed_concat_reset (ops : List Operation) : chunksFed (ops ++ [.reset]) = [] := by
  simp [chunksFed]

theorem chunksFed_concat_call (ops : List Operation) (call : Call) :
    chunksFed (ops ++ [.call call]) = chunksFed ops ++ (Operation.call call).chunk?.toList := by
  have hcall : (Operation.call call != .reset) = true := by simp
  rw [chunksFed, List.rtakeWhile_concat_pos (· != Operation.reset) _ _ hcall,
    List.filterMap_append]
  cases call <;> rfl

namespace Lexer

variable {resolve : Resolver} {l l' : Lexer} {chunks : List String}

/-- The lexer that the operations leave, whether or not one of them fails. -/
def after (resolve : Resolver) (l : Lexer) (ops : List Operation) : Lexer :=
  ops.foldl (fun l op => (l.perform resolve op).lexer) l

theorem after_concat (resolve : Resolver) (l : Lexer) (ops : List Operation) (op : Operation) :
    l.after resolve (ops ++ [op]) = ((l.after resolve ops).perform resolve op).lexer := by
  simp [after]

/-! ## What an operation does to the text -/

/-- Reading keeps the text, also where it stops at an error. -/
theorem HoldsText.reads {es : List Event} {error? : Option SyntaxError} (h : HoldsText chunks l)
    (hreads : Reads resolve l es l' error?) : HoldsText chunks l' := by
  obtain ⟨m, hsteps, hhalts⟩ := hreads
  have hm : HoldsText chunks m :=
    ⟨hsteps.toList.trans h.text, hsteps.afterReturn.trans h.afterReturn⟩
  cases hhalts with
  | exhausted => exact hm
  | waiting => exact hm
  | rejected => exact ⟨by simp [hm.text], hm.afterReturn⟩

theorem HoldsText.feed (h : HoldsText chunks l) (resolve : Resolver) (chunk : String) :
    HoldsText (chunks ++ [chunk]) (l.feed resolve chunk).lexer :=
  (h.receive chunk).reads (reads_feed resolve l chunk)

theorem HoldsText.settle (h : HoldsText chunks l) : HoldsText chunks l.settle.lexer := by
  unfold Lexer.settle
  split
  · exact h
  · split <;> exact ⟨by simp [h.text], h.afterReturn⟩

theorem HoldsText.flush (h : HoldsText chunks l) : HoldsText chunks l.flush.lexer := by
  unfold Lexer.flush
  dsimp only
  split <;> exact ⟨h.settle.text, h.settle.afterReturn⟩

theorem HoldsText.perform {ops : List Operation} (h : HoldsText (chunksFed ops) l)
    (resolve : Resolver) (op : Operation) :
    HoldsText (chunksFed (ops ++ [op])) (l.perform resolve op).lexer := by
  cases op with
  | call call =>
      rw [chunksFed_concat_call]
      cases call with
      | part chunk => exact h.feed resolve chunk
      | eof => simpa [Operation.chunk?, Lexer.perform, Lexer.call] using h.flush
  | reset =>
      rw [chunksFed_concat_reset]
      exact ⟨rfl, rfl⟩

theorem holdsText_after (resolve : Resolver) (ops : List Operation) :
    HoldsText (chunksFed ops) (after resolve {} ops) := by
  induction ops using List.reverseRecOn with
  | nil => exact ⟨rfl, rfl⟩
  | append_singleton ops op ih =>
      rw [after_concat]
      exact ih.perform resolve op

/-- **Folding in chunks is folding at once.** The text of a lexer is the folded text of the chunks
fed since the last reset, whatever was done in between and whether or not it failed. And folding is
what it should be: of the one division of a text into line endings and other characters, every piece
becomes one character, no return is left, and folding again changes nothing. -/
theorem buffered_eq_normalize :
    (∀ (resolve : Resolver) (ops : List Operation),
      String.ofList (after resolve {} ops).buffer.toList =
        LineEnding.normalize (String.join (chunksFed ops))) ∧
    ∀ text : String,
      (∃! ps, LineEnding.Divides ps text.toList) ∧
      (∃ ps, LineEnding.Divides ps text.toList ∧
        LineEnding.normalize text = String.ofList (ps.map LineEnding.Piece.folded)) ∧
      '\r' ∉ (LineEnding.normalize text).toList ∧
      LineEnding.normalize (LineEnding.normalize text) = LineEnding.normalize text := by
  refine ⟨fun resolve ops => ?_, fun text => ⟨?_, ?_, ?_, ?_⟩⟩
  · rw [(holdsText_after resolve ops).text, LineEnding.normalize]
  · exact LineEnding.existsUnique_divides text.toList
  · obtain ⟨ps, hps⟩ := LineEnding.exists_divides text.toList
    exact ⟨ps, hps, LineEnding.normalize_of_divides hps⟩
  · exact LineEnding.return_notMem_normalize text
  · exact LineEnding.normalize_of_notMem (LineEnding.return_notMem_normalize text)

end Lexer

end TemplateMarkup
