import TemplateMarkup.Proofs.Assembler.Targets
import TemplateMarkup.Proofs.Source.Use
import TemplateMarkup.Proofs.Tokenizer.Requests

/-!
# Nothing is misused and nothing is missed

Whatever is done to a lexer, every event that it sends finds its target in the assembler, and its
content is dropped only where an end tag or an end expression has no place for it
(`Fits.heeds_reported`). Where the lexer looks a reference up it stays inside its buffer
(`Buffer.reference_flat`), and no request to a tokenizer is answered by a misuse.
-/

namespace TemplateMarkup

/-- What one operation sends is heeded, and the assembler is then where the lexer is. -/
theorem Lexer.Fits.perform {l : Lexer} {a : Assembler} (h : l.Fits a) (resolve : Resolver)
    (op : Operation) : ∃ a', a.Heeds (l.perform resolve op).events a' ∧ (l.perform resolve op).lexer.Fits a' := by
  cases op with
  | call call =>
      obtain ⟨a', ha', hfits⟩ := fits_of_call resolve call h
      exact ⟨a', ha'.heeds, hfits⟩
  | reset => exact ⟨a.reset, .reset (.nil _), fits_start _⟩

theorem Lexer.Fits.heeds_reported {l : Lexer} {a : Assembler} (h : l.Fits a)
    (resolve : Resolver) (ops : List Operation) : ∃ a', a.Heeds (l.reported resolve ops) a' := by
  induction ops generalizing l a with
  | nil => exact ⟨a, .nil a⟩
  | cons op ops ih =>
      obtain ⟨a₁, hfirst, hfits⟩ := h.perform resolve op
      obtain ⟨a', hlater⟩ := ih hfits
      exact ⟨a', hfirst.trans hlater⟩

/-- **No misuse, and no event missed.** Every event finds its target: it is a reset, or it is kept,
or it is one of those that an end tag and an end expression have no place for. The same goes for the
lexer and the assembler of a tokenizer between two requests, none of which is answered by a misuse.
A reference is read as from the flat buffer, which would give no answer if an access left its text. -/
theorem Tokenizer.events_find_targets (resolve : Resolver) (options : Options) :
    (∀ ops, ∃ a', (ofOptions options).assembler.Heeds (Lexer.reported resolve {} ops) a') ∧
      (∀ requests, ∀ reply ∈ (ofOptions options).replies resolve requests,
        (∀ m, reply.outcome ≠ .error (.misuse m)) ∧
          ∀ ops, ∃ a',
            reply.tokenizer.assembler.Heeds (reply.tokenizer.lexer.reported resolve ops) a') ∧
      ∀ (b : Buffer) (stay : State) (append : String → Event) (rest : List Char),
        b.unread = '&' :: rest →
          ∃ t decoded?, Move.reference resolve stay append rest = .take t ∧
            t.events = [append (decoded?.getD "&")] ∧
            (b.advance 1).flat.reference? resolve =
              some (decoded?, (b.advance (t.extra + 1)).flat) := by
  have hnew := ready_ofOptions options
  refine ⟨fun ops => hnew.fits.heeds_reported resolve ops, ?_, ?_⟩
  · intro requests reply hreply
    obtain ⟨hready, hmisuse⟩ := hnew.replies requests reply hreply
    exact ⟨hmisuse, fun ops => hready.fits.heeds_reported resolve ops⟩
  · intro b stay append rest hunread
    obtain ⟨t, decoded?, htake, hevents, hread, -, -⟩ :=
      Buffer.reference_flat resolve stay append hunread
    exact ⟨t, decoded?, htake, hevents, hread⟩

/-- A request that is rejected inside an expression is followed by one that breaks off in a value, and a
reference is read behind the letter of a text. -/
theorem Tokenizer.events_find_targets_midway :
    let requests : List Request := [.call (.part "<p a=1>\x7b\x7bb\x7dc"), .call (.part "</p a=\"&lt;")]
    let first := (ofOptions ⟨true⟩).respond Reference.standard (.call (.part "<p a=1>\x7b\x7bb\x7dc"))
    let b := (Buffer.push ∅ "a&lt;b".toList).advance 1
    first ∈ (ofOptions ⟨true⟩).replies Reference.standard requests ∧
      first.outcome.toBool = false ∧ (∀ m, first.outcome ≠ .error (.misuse m)) ∧
      b.unread = '&' :: "lt;b".toList ∧
      ∃ t decoded?, Move.reference Reference.standard .data .appendChars "lt;b".toList = .take t ∧
        (b.advance 1).flat.reference? Reference.standard =
          some (decoded?, (b.advance (t.extra + 1)).flat) := by
  intro requests first b
  obtain ⟨-, hreplies, hread⟩ := events_find_targets Reference.standard ⟨true⟩
  have hfirst : first ∈ (ofOptions ⟨true⟩).replies Reference.standard requests := List.mem_cons_self
  have hunread : b.unread = '&' :: "lt;b".toList := by decide
  obtain ⟨t, decoded?, htake, -, hflat⟩ := hread b .data .appendChars _ hunread
  exact ⟨hfirst, by decide +kernel, (hreplies _ _ hfirst).1, hunread, t, decoded?, htake, hflat⟩

end TemplateMarkup
