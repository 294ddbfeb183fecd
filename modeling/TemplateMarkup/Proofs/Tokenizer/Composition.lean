import TemplateMarkup.Proofs.Lexer.Sources
import TemplateMarkup.Proofs.Tokenizer.Locality
import TemplateMarkup.Proofs.Tokenizer.Rejection

/-!
# Documents put together

What is left of a document can be judged from the middle of it, from a lexer and an assembler
(`Lexer.verdict`). Taking steps does not change the verdict, and neither does the place: where the same
text is left, the same tokens follow, or the same error. So markup that the lexer reads as one
construct, whatever follows it, may stand in front of any document (`verdict_append`). The tokens of the
document follow the token of the construct; they stand elsewhere, so only their kinds are compared, and
of an error only its cause.
-/

namespace TemplateMarkup

variable {resolve : Resolver}

/-- The cause for which a document is rejected. -/
def Failure.cause? : Failure → Option SyntaxError.Cause
  | rejected e => some e.cause
  | misuse _ => none

/-- The kinds of the tokens, or the cause of the rejection. -/
abbrev Verdict := Except (Option SyntaxError.Cause) (List TokenKind)

namespace Lexer

variable {l l' m : Lexer} {es : List Event} {a a' b : Assembler} {w : List Char}

theorem state_receive (document : String) : (receive {} document).state = .beforeData := rfl

theorem unread_receive (document : String) :
    (receive {} document).buffer.unread = LineEnding.fold false document.toList := by
  simp [receive, extend, Buffer.push]
  rfl

theorem unread_receive_of_notMem (hw : '\r' ∉ w) :
    (receive {} (String.ofList w)).buffer.unread = w := by
  rw [unread_receive, String.toList_ofList, LineEnding.fold_of_notMem hw]

/-- Behind a text without carriage returns a document is folded as it is alone. -/
theorem unread_receive_append {s : String} (h : '\r' ∉ s.toList) (rest : String) :
    (receive {} (s ++ rest)).buffer.unread = s.toList ++ (receive {} rest).buffer.unread := by
  rw [unread_receive, unread_receive, String.toList_append, LineEnding.fold_append,
    LineEnding.fold_of_notMem h, LineEnding.endsInReturn_of_notMem h]

/-- Two documents whose beginnings lead to the same state, in front of the same text. -/
theorem cut_of_openings {w' : List Char} {es' : List Event} {s : State}
    (h : Passes resolve .beforeData w es s) (h' : Passes resolve .beforeData w' es' s)
    (hw : '\r' ∉ w) (hw' : '\r' ∉ w') (rest : String) :
    ∃ l m, Steps resolve (receive {} (String.ofList w ++ rest)) es l ∧
      Steps resolve (receive {} (String.ofList w' ++ rest)) es' m ∧ l.state = s ∧ Cut [] l m := by
  obtain ⟨l, hsteps, hl, hunread⟩ := h (receive {} (String.ofList w ++ rest)) _ rfl
    (by rw [unread_receive_append (by simpa using hw), String.toList_ofList])
  obtain ⟨m, hsteps', hm, hunread'⟩ := h' (receive {} (String.ofList w' ++ rest)) _ rfl
    (by rw [unread_receive_append (by simpa using hw'), String.toList_ofList])
  exact ⟨l, m, hsteps, hsteps', hl, by rw [hl, hm], by simp [hunread, hunread']⟩

/-! ## The verdict on what is left -/

/-- What comes of it when the text that is left is read to its end. -/
def verdict (resolve : Resolver) (l : Lexer) (a : Assembler) : Verdict :=
  match (l.run resolve).error? with
  | some e => .error (some e.cause)
  | none =>
      ((a.receiveAll ((l.run resolve).events ++ (l.run resolve).lexer.flush.events)).map
        Assembler.kinds).mapError fun _ => none

theorem verdict_of_rejected {e : SyntaxError} (h : Reads resolve l es l' (some e)) (a : Assembler) :
    l.verdict resolve a = .error (some e.cause) := by
  obtain ⟨-, -, he⟩ := run_of_reads h
  rw [verdict, he]

theorem verdict_of_finishes (h : Finishes resolve l es) (ha : a.receiveAll es = .ok a') :
    l.verdict resolve a = .ok a'.kinds := by
  obtain ⟨es₁, m, hreads, rfl⟩ := h
  obtain ⟨hes, hm, he⟩ := run_of_reads hreads
  simp [verdict, he, hes, hm, ha, Except.map, Except.mapError]

/-- Steps do not change the verdict. -/
theorem Steps.verdict_eq (h : Steps resolve l es l') (ha : a.receiveAll es = .ok a') :
    l.verdict resolve a = l'.verdict resolve a' := by
  obtain ⟨hes, hl, he⟩ := run_of_reads (h.reads (reads_run resolve l'))
  rw [verdict, verdict, hes, hl, he, List.append_assoc, Assembler.receiveAll_append_of_ok ha]

/-- The text that is left is read to its end, or to an error. -/
theorem exists_end (resolve : Resolver) (l : Lexer) :
    (∃ es l', Steps resolve l es l' ∧ Halts resolve l' l' none) ∨
      ∃ es m l' e, Steps resolve l es m ∧ Halts resolve m l' (some e) := by
  obtain ⟨m, hsteps, hhalts⟩ := reads_run resolve l
  cases he : (l.run resolve).error? with
  | none =>
      rw [he] at hhalts
      obtain rfl := hhalts.eq_of_ok
      exact .inl ⟨_, _, hsteps, hhalts⟩
  | some e =>
      rw [he] at hhalts
      exact .inr ⟨_, _, _, _, hsteps, hhalts⟩

/-- What is rejected here is rejected elsewhere. -/
theorem Cut.verdict_of_rejected {e : SyntaxError} (hcut : Cut [] l m) {p : Lexer}
    (hsteps : Steps resolve l es p) (hhalts : Halts resolve p l' (some e)) (b : Assembler) :
    m.verdict resolve b = .error (some e.cause) := by
  obtain ⟨es', p', hsteps', hcut', -⟩ := hsteps.elsewhere hcut
  obtain ⟨m', e', hhalts', hcause⟩ := hcut'.rejects hhalts
  rw [Lexer.verdict_of_rejected ⟨p', hsteps', hhalts'⟩ b, hcause]

/-- All that is reported up to the end of the input suits the assembler. -/
theorem Fits.receives_end (h : l.Fits a) (hfinishes : Finishes resolve l es) :
    ∃ a', a.Receives es a' := by
  obtain ⟨es₁, m, ⟨l', hsteps, hhalts⟩, rfl⟩ := hfinishes
  obtain rfl := hhalts.eq_of_ok
  obtain ⟨a₁, hfirst, hfits⟩ := hsteps.fits h
  obtain ⟨a', hlast, -⟩ := Assembler.receives_of_shape hfits (shape_of_flush l')
  exact ⟨a', hfirst.trans hlast⟩

/-- Where the same text is left, both assemblers receive the same events but for the places, or both
documents are rejected for the same cause. -/
theorem Cut.verdicts (resolve : Resolver) (hcut : Cut [] l m) (hfits : l.Fits a) (b : Assembler) :
    (∃ cause, l.verdict resolve a = .error (some cause) ∧
        m.verdict resolve b = .error (some cause)) ∨
      ∃ es es' a', a.Receives es a' ∧ Alike es' es ∧ l.verdict resolve a = .ok a'.kinds ∧
        ∀ b', b.receiveAll es' = .ok b' → m.verdict resolve b = .ok b'.kinds := by
  rcases exists_end resolve l with ⟨es, l', hsteps, hhalts⟩ | ⟨es, p, l', e, hsteps, hhalts⟩
  · have hwhole := hsteps.finishes hhalts.finishes
    obtain ⟨a', ha⟩ := hfits.receives_end hwhole
    obtain ⟨es', hfinishes, halike⟩ := hsteps.slice_rest hhalts hcut
    exact .inr ⟨_, es', a', ha, halike, verdict_of_finishes hwhole ha.receiveAll,
      fun b' hb' => verdict_of_finishes hfinishes hb'⟩
  · exact .inl ⟨e.cause, Lexer.verdict_of_rejected ⟨p, hsteps, hhalts⟩ a,
      hcut.verdict_of_rejected hsteps hhalts b⟩

/-- **The same text elsewhere.** Whatever the tokens so far, the same ones follow. -/
theorem Cut.verdict (resolve : Resolver) (hcut : Cut [] l m) (hfits : l.Fits a)
    (hsame : a.SameContents b) :
    ∃ later : Verdict, l.verdict resolve a = later.map (a.kinds ++ ·) ∧
      m.verdict resolve b = later.map (b.kinds ++ ·) := by
  rcases hcut.verdicts resolve hfits b with
    ⟨cause, hl, hm⟩ | ⟨es, es', a', ha, halike, hl, hm⟩
  · exact ⟨.error (some cause), hl, hm⟩
  · obtain ⟨b', new, hb, -, hkinds, hkinds'⟩ := ha.alike hsame halike
    refine ⟨.ok new, ?_, ?_⟩
    · rw [hl, hkinds]
      rfl
    · rw [hm b' hb, hkinds']
      rfl

end Lexer

namespace Tokenizer

variable {options : Options} {document rest : String} {k : TokenKind} {ks : List TokenKind}
  {es : List Event} {a : Assembler} {w : List Char}

/-- The kinds of the tokens of a document, or why there are none. -/
def kinds (resolve : Resolver) (options : Options) (document : String) :
    Except Failure (List TokenKind) :=
  ((ofOptions options).tokenize resolve document).outcome.map (·.map Token.kind)

theorem kinds_eq_ok_iff :
    kinds resolve options document = .ok ks ↔
      ∃ tokens, ((ofOptions options).tokenize resolve document).outcome = .ok tokens ∧
        tokens.map Token.kind = ks := by
  rw [kinds]
  cases ((ofOptions options).tokenize resolve document).outcome <;> simp [Except.map]

/-- The kinds of the tokens of a document, or the cause for which it is rejected, wherever that is. -/
def verdict (resolve : Resolver) (options : Options) (document : String) : Verdict :=
  (kinds resolve options document).mapError Failure.cause?

theorem verdict_eq_ok_iff :
    verdict resolve options document = .ok ks ↔ kinds resolve options document = .ok ks := by
  rw [verdict]
  cases kinds resolve options document <;> simp [Except.mapError]

/-- An assembler at the beginning of a document. -/
abbrev fresh (options : Options) : Assembler :=
  { trackLocations := options.trackLocations }

/-- The verdict on a document is that on all its text. -/
theorem verdict_eq (resolve : Resolver) (options : Options) (document : String) :
    verdict resolve options document =
      (Lexer.receive {} document).verdict resolve (fresh options) := by
  have hreads := Lexer.reads_feed resolve {} document
  rcases tokenize_outcome_of_feed resolve (ofOptions options) document with
    ⟨tokens, hout, he⟩ | ⟨e, hout, he⟩
  · obtain ⟨es, l, a, hsteps, hhalts, ha, rfl⟩ := reads_of_tokenize hout
    rw [Lexer.verdict_of_finishes (hsteps.finishes hhalts.finishes) ha.receiveAll, verdict_eq_ok_iff,
      kinds_eq_ok_iff]
    exact ⟨_, hout, rfl⟩
  · rw [he] at hreads
    rw [Lexer.verdict_of_rejected hreads, verdict, kinds, hout]
    rfl

/-- What a document comes to that has been read in part. -/
theorem verdict_of_steps {l : Lexer} (h : Lexer.Steps resolve (Lexer.receive {} document) es l)
    (ha : (fresh options).receiveAll es = .ok a) :
    verdict resolve options document = l.verdict resolve a := by
  rw [verdict_eq]
  exact h.verdict_eq ha

/-- A document of constructs. -/
theorem kinds_of_constructs (cs : List Construct)
    (h : Lexer.Finishes resolve (Lexer.receive {} document) (cs.flatMap Construct.events))
    (options : Options) : kinds resolve options document = .ok (cs.map Construct.kind) := by
  obtain ⟨a, ha, htokens, -⟩ := Assembler.receiveAll_flatMap_events (a := fresh options) rfl cs
  rw [← verdict_eq_ok_iff, verdict_eq, Lexer.verdict_of_finishes h ha]
  simp [Assembler.kinds, htokens, Construct.map_kind_tokens]

/-- The line endings of a document may be folded beforehand. -/
theorem verdict_normalize (resolve : Resolver) (options : Options) (document : String) :
    verdict resolve options (LineEnding.normalize document) = verdict resolve options document := by
  have hreturn : '\r' ∉ LineEnding.fold false document.toList := LineEnding.return_notMem_fold _ _
  have hcut : Lexer.Cut [] (Lexer.receive {} document)
      (Lexer.receive {} (LineEnding.normalize document)) := by
    refine ⟨?_, ?_⟩
    · rw [Lexer.state_receive, Lexer.state_receive]
    · rw [LineEnding.normalize, Lexer.unread_receive_of_notMem hreturn, Lexer.unread_receive,
        List.append_nil]
  obtain ⟨later, hfirst, hsecond⟩ := hcut.verdict resolve
    (Lexer.fits_start options.trackLocations) (b := fresh options) ⟨rfl, rfl⟩
  rw [verdict_eq, verdict_eq, hfirst, hsecond]

/-- A document that breaks off in its first construct. -/
theorem kinds_of_unstopped (h : Lexer.Finishes resolve (Lexer.receive {} document) es)
    (hes : Unstopped es) (options : Options) : kinds resolve options document = .ok [] := by
  have hfits : (Lexer.receive {} document).Fits (fresh options) := Lexer.fits_start _
  obtain ⟨a', ha⟩ := hfits.receives_end h
  rw [← verdict_eq_ok_iff, verdict_eq, Lexer.verdict_of_finishes h ha.receiveAll,
    Assembler.kinds, (ha.sameTokens hes).tokens]
  rfl

/-- **A construct in front of a document.** -/
theorem verdict_append (hspells : Lexer.Spells resolve .beforeData w k) (hw : '\r' ∉ w)
    (options : Options) (rest : String) :
    verdict resolve options (String.ofList w ++ rest) =
      (verdict resolve options rest).map (k :: ·) := by
  have hdocument := Lexer.unread_receive_append (s := String.ofList w) (by simpa using hw) rest
  rw [String.toList_ofList] at hdocument
  obtain ⟨c, l, rfl, hsteps, hl, hunread⟩ := hspells _ _ rfl hdocument
  have ha := Assembler.receiveAll_events (a := fresh options) rfl c
  rw [verdict_of_steps hsteps ha, verdict_eq resolve options rest]
  -- behind the construct the lexer is where it is at the start of the document
  have hcut : Lexer.Cut [] (Lexer.receive {} rest) l := ⟨hl, by simp [hunread]⟩
  have hsame : (fresh options).SameContents
      (((fresh options).holding c.kind none).complete c.stop) := ⟨rfl, rfl⟩
  obtain ⟨later, hrest, hwhole⟩ := hcut.verdict resolve (Lexer.fits_start _) hsame
  rw [hrest, hwhole]
  cases later <;> rfl

theorem kinds_append (hspells : Lexer.Spells resolve .beforeData w k) (hw : '\r' ∉ w)
    (hrest : kinds resolve options rest = .ok ks) :
    kinds resolve options (String.ofList w ++ rest) = .ok (k :: ks) := by
  rw [← verdict_eq_ok_iff] at hrest ⊢
  rw [verdict_append hspells hw, hrest]
  rfl

end Tokenizer

end TemplateMarkup
