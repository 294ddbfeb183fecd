import TemplateMarkup.Proofs.Lexer.Decoding
import TemplateMarkup.Proofs.Tokenizer.Requests

/-!
# Decoded text is only text

Whatever the names stand for, be it markup, decides nothing but the text of runs and the values of
tag attributes. Two tokenizers whose resolvers know the same names take the same steps and give the
same replies but for that (`replies_of_sameNames`).
-/

namespace TemplateMarkup

/-- The tokenizers are the same but for text. -/
structure Tokenizer.SameOutline (t t' : Tokenizer) : Prop where
  lexer : t.lexer = t'.lexer
  assembler : t.assembler.outline = t'.assembler.outline

/-- The replies are the same but for text. -/
structure Reply.SameOutline (r r' : Reply (List Token)) : Prop where
  outcome : r.outcome.map (·.map Token.outline) = r'.outcome.map (·.map Token.outline)
  tokenizer : r.tokenizer.SameOutline r'.tokenizer
  log : r.log = r'.log

theorem Assembler.outline_takeTokens (a : Assembler) :
    ({ a with tokens := #[] } : Assembler).outline = { a.outline with tokens := #[] } := by
  simp [Assembler.outline]

namespace Tokenizer

variable {resolve resolve' : Resolver} {t t' : Tokenizer}

theorem SameOutline.reset (h : t.SameOutline t') : t.reset.SameOutline t'.reset := by
  have htrack := congrArg Assembler.trackLocations h.assembler
  change t.assembler.trackLocations = t'.assembler.trackLocations at htrack
  refine ⟨rfl, ?_⟩
  simp [Tokenizer.reset, Assembler.reset, htrack]

theorem log_of_sameNames (h : resolve.SameNames resolve') (ht : t.Ready) (ht' : t'.Ready)
    (hlexer : t.lexer = t'.lexer) (call : Call) :
    (t.call resolve call).log = (t'.call resolve' call).log := by
  have hscan := Lexer.call_of_sameNames h t.lexer call
  rw [log_of_call ht, log_of_call ht', hscan.log, hscan.error?, hlexer]

theorem call_of_sameNames (h : resolve.SameNames resolve') (ht : t.Ready) (ht' : t'.Ready)
    (hsame : t.SameOutline t') (call : Call) :
    (t.call resolve call).SameOutline (t'.call resolve' call) := by
  have hscan := Lexer.call_of_sameNames h t.lexer call
  have hlog := log_of_sameNames h ht ht' hsame.lexer call
  rw [hsame.lexer] at hscan
  cases he : (t'.lexer.call resolve' call).error? with
  | some e =>
      have he' := hscan.error?.trans he
      rw [← hsame.lexer] at he'
      refine ⟨?_, ?_, hlog⟩
      · rw [call_of_error ht he', call_of_error ht' he]
      · rw [tokenizer_of_error ht he', tokenizer_of_error ht' he]
        exact hsame.reset
  | none =>
      have he' := hscan.error?.trans he
      rw [← hsame.lexer] at he' hscan
      obtain ⟨a, ha, -⟩ := Lexer.fits_of_call resolve call ht.fits
      obtain ⟨a', ha', -⟩ := Lexer.fits_of_call resolve' call ht'.fits
      obtain ⟨hout, htok⟩ := call_of_ok ht ha he'
      obtain ⟨hout', htok'⟩ := call_of_ok ht' ha' he
      -- the same skeleton goes to the same outline
      have houtline : a.outline = a'.outline := by
        have hleft := ha.outline
        rw [hscan.events, hsame.lexer, hsame.assembler, ha'.outline] at hleft
        exact (Except.ok.inj hleft).symm
      have htokens : a.tokens.map Token.outline = a'.tokens.map Token.outline :=
        congrArg Assembler.tokens houtline
      refine ⟨?_, ?_, hlog⟩
      · rw [hout, hout', Except.map, Except.map, ← Array.toList_map, ← Array.toList_map, htokens]
      · rw [htok, htok']
        refine ⟨hscan.lexer.trans (by rw [hsame.lexer]), ?_⟩
        rw [Assembler.outline_takeTokens, Assembler.outline_takeTokens, houtline]

theorem outcome_append {x x' : Except Failure (List Token)} {ts ts' : List Token}
    (hts : ts.map Token.outline = ts'.map Token.outline)
    (hx : x.map (·.map Token.outline) = x'.map (·.map Token.outline)) :
    (x.map (ts ++ ·)).map (·.map Token.outline) =
      (x'.map (ts' ++ ·)).map (·.map Token.outline) := by
  cases x <;> cases x' <;> simp_all [Except.map]

theorem session_of_sameNames (h : resolve.SameNames resolve') (ht : t.Ready) (ht' : t'.Ready)
    (hsame : t.SameOutline t') (calls : List Call) :
    (t.session resolve calls).SameOutline (t'.session resolve' calls) := by
  induction calls generalizing t t' with
  | nil => exact ⟨rfl, hsame, rfl⟩
  | cons call calls ih =>
      have hcall := call_of_sameNames h ht ht' hsame call
      have hlater := ih (ht.call call) (ht'.call call) hcall.tokenizer
      have houtcome := hcall.outcome
      cases hout : (t.call resolve call).outcome with
      | error f =>
          cases hout' : (t'.call resolve' call).outcome with
          | error f' => simpa [session, hout, hout'] using hcall
          | ok tokens' => simp [hout, hout', Except.map] at houtcome
      | ok tokens =>
          cases hout' : (t'.call resolve' call).outcome with
          | error f' => simp [hout, hout', Except.map] at houtcome
          | ok tokens' =>
              rw [hout, hout'] at houtcome
              simp only [session, hout, hout']
              refine ⟨?_, hlater.tokenizer, ?_⟩
              · exact outcome_append (Except.ok.inj houtcome) hlater.outcome
              · rw [hcall.log, hlater.log]

theorem respond_of_sameNames (h : resolve.SameNames resolve') (ht : t.Ready) (ht' : t'.Ready)
    (hsame : t.SameOutline t') (request : Request) :
    (t.respond resolve request).SameOutline (t'.respond resolve' request) := by
  cases request with
  | call call => exact call_of_sameNames h ht ht' hsame call
  | tokenize text =>
      rw [respond, respond, tokenize_eq_session, tokenize_eq_session]
      exact session_of_sameNames h (ready_reset t) (ready_reset t') hsame.reset _
  | reset => exact ⟨rfl, hsame.reset, rfl⟩

theorem replies_sameOutline (h : resolve.SameNames resolve') (ht : t.Ready) (ht' : t'.Ready)
    (hsame : t.SameOutline t') (requests : List Request) :
    List.Forall₂ Reply.SameOutline (t.replies resolve requests) (t'.replies resolve' requests) := by
  induction requests generalizing t t' with
  | nil => exact .nil
  | cons request requests ih =>
      have hfirst := respond_of_sameNames h ht ht' hsame request
      exact .cons hfirst (ih (ht.respond request) (ht'.respond request) hfirst.tokenizer)

/-- **Decoded text cannot change the markup.** With resolvers that know the same names every lexer
goes through the same lexers, and every request to a new tokenizer is answered alike but for text:
it fails with the same error, or it yields tokens of the same outlines. -/
theorem replies_of_sameNames (h : resolve.SameNames resolve') (options : Options)
    (requests : List Request) :
    (∀ l m, (∃ es, Lexer.Steps resolve l es m) ↔ ∃ es, Lexer.Steps resolve' l es m) ∧
      List.Forall₂ Reply.SameOutline ((ofOptions options).replies resolve requests)
        ((ofOptions options).replies resolve' requests) := by
  constructor
  · intro l m
    constructor
    · rintro ⟨es, hsteps⟩
      obtain ⟨es', hsteps', -⟩ := hsteps.of_sameNames h
      exact ⟨es', hsteps'⟩
    · rintro ⟨es, hsteps⟩
      obtain ⟨es', hsteps', -⟩ := hsteps.of_sameNames h.symm
      exact ⟨es', hsteps'⟩
  · have hnew := ready_ofOptions options
    exact replies_sameOutline h hnew hnew ⟨rfl, rfl⟩ requests

/-- References that stand for markup: their texts are found in the tokens, and open nothing. -/
theorem replies_of_sameNames_markup :
    let markup : Resolver := fun name => (Reference.standard name).map fun _ => "<\x7b\x7b'>"
    let requests : List Request :=
      [.call (.part "&lt;<a b='&gt;'>&am"), .call .eof, .tokenize "&amp;\x7b\x7bx\x7dy"]
    Reference.standard.SameNames markup ∧
      List.Forall₂ Reply.SameOutline
        ((ofOptions ⟨false⟩).replies Reference.standard requests)
        ((ofOptions ⟨false⟩).replies markup requests) ∧
      ((ofOptions ⟨false⟩).replies markup requests).map (·.outcome) = [
        .ok [⟨.chars "<\x7b\x7b'>", none⟩,
          ⟨.startTag "a" [⟨"b", ["<\x7b\x7b'>"], [], true⟩] false, none⟩],
        .ok [⟨.chars "&am", none⟩],
        .error (.rejected ⟨.unpairedBrace 'y', ⟨1, 10⟩, ⟨1, 5⟩⟩)] := by
  intro markup requests
  have hnames : Resolver.SameNames Reference.standard markup := by
    intro name
    simp [markup]
  exact ⟨hnames, (replies_of_sameNames hnames ⟨false⟩ requests).2, by decide +kernel⟩

end Tokenizer

end TemplateMarkup
