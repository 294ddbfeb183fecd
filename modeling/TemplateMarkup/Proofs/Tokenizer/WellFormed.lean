import TemplateMarkup.Proofs.Lexer.Form
import TemplateMarkup.Proofs.Tokenizer.Requests

/-!
# Every token is well formed

A tokenizer keeps, from request to request, an assembler that holds nothing malformed (`Sound`). So
whatever it is asked, in whatever order and with whatever text, every token that it hands out is well
formed (`wellFormed_of_reply`).
-/

namespace TemplateMarkup.Tokenizer

variable {strict : Bool} {resolve : Resolver} {options : Options} {t : Tokenizer}
  {tokens : List Token}

/-- Between two requests nothing malformed is under construction. -/
structure Sound (strict : Bool) (t : Tokenizer) : Prop where
  ready : t.Ready
  assembler : t.assembler.Sound strict t.lexer.state.form

theorem sound_ofOptions (strict : Bool) (options : Options) : (ofOptions options).Sound strict :=
  ⟨ready_ofOptions options, .idle, by simp [ofOptions]⟩

theorem sound_reset (strict : Bool) (t : Tokenizer) : t.reset.Sound strict :=
  ⟨ready_reset t, .idle, by simp [reset, Assembler.reset]⟩

/-- The reply hands out nothing malformed, and leaves nothing malformed behind. -/
structure Reply.Sound (strict : Bool) (reply : Reply (List Token)) : Prop where
  tokens : ∀ tokens, reply.outcome = .ok tokens → ∀ token ∈ tokens, token.kind.Sound strict
  tokenizer : reply.tokenizer.Sound strict

theorem Sound.call (h : t.Sound strict) (hstrict : Strict strict resolve) (call : Call) :
    Reply.Sound strict (t.call resolve call) := by
  cases he : (t.lexer.call resolve call).error? with
  | some e =>
      refine ⟨?_, ?_⟩
      · intro tokens hout
        rw [call_of_error h.ready he] at hout
        cases hout
      · rw [tokenizer_of_error h.ready he]
        exact sound_reset strict t
  | none =>
      obtain ⟨a, ha, hfits⟩ := Lexer.fits_of_call resolve call h.ready.fits
      have hsound := Lexer.sound_of_call h.assembler hstrict call ha
      obtain ⟨hout, htokenizer⟩ := call_of_ok h.ready ha he
      refine ⟨?_, ?_⟩
      · intro tokens hout'
        obtain rfl : a.tokens.toList = tokens := Except.ok.inj (hout.symm.trans hout')
        exact hsound.tokens
      · rw [htokenizer]
        exact ⟨⟨hfits, rfl⟩, hsound.formed, by simp⟩

theorem Sound.session (h : t.Sound strict) (hstrict : Strict strict resolve) (calls : List Call) :
    Reply.Sound strict (t.session resolve calls) := by
  induction calls generalizing t with
  | nil =>
      refine ⟨?_, h⟩
      intro tokens hout
      cases hout
      simp
  | cons call calls ih =>
      have hcall := h.call hstrict call
      cases hout : (t.call resolve call).outcome with
      | error f => simpa [Tokenizer.session, hout] using hcall
      | ok tokens₁ =>
          have hlater := ih hcall.tokenizer
          simp only [Tokenizer.session, hout]
          refine ⟨?_, hlater.tokenizer⟩
          intro tokens hall token htoken
          cases hout' : ((t.call resolve call).tokenizer.session resolve calls).outcome with
          | error f => simp [hout', Except.map] at hall
          | ok tokens₂ =>
              obtain rfl : tokens₁ ++ tokens₂ = tokens := by simpa [hout', Except.map] using hall
              rcases List.mem_append.mp htoken with hmem | hmem
              · exact hcall.tokens tokens₁ hout token hmem
              · exact hlater.tokens tokens₂ hout' token hmem

theorem Sound.respond (h : t.Sound strict) (hstrict : Strict strict resolve) (request : Request) :
    Reply.Sound strict (t.respond resolve request) := by
  cases request with
  | call call => exact h.call hstrict call
  | tokenize text =>
      rw [Tokenizer.respond, tokenize_eq_session]
      exact (sound_reset strict t).session hstrict _
  | reset =>
      refine ⟨?_, sound_reset strict t⟩
      intro tokens hout
      cases hout
      simp

theorem Sound.replies (h : t.Sound strict) (hstrict : Strict strict resolve)
    (requests : List Request) :
    ∀ reply ∈ t.replies resolve requests, Reply.Sound strict reply := by
  induction requests generalizing t with
  | nil => simp [Tokenizer.replies]
  | cons request requests ih =>
      intro reply hreply
      have hresponse := h.respond hstrict request
      rcases List.mem_cons.mp hreply with rfl | hlater
      · exact hresponse
      · exact ih hresponse.tokenizer reply hlater

/-- **Every token is well formed.** Whatever a new tokenizer is asked, each token of each reply has
the names and values that its kind allows; and if no known reference stands for nothing, no text is
without a character. -/
theorem wellFormed_of_reply {requests : List Request} {reply : Reply (List Token)} {token : Token}
    (hreply : reply ∈ (ofOptions options).replies resolve requests)
    (hout : reply.outcome = .ok tokens) (htoken : token ∈ tokens) :
    token.kind.WellFormed ∧
      ((∀ name, resolve name ≠ some "") → token.kind ≠ .chars "") := by
  constructor
  · have hlax : Strict false resolve := by
      intro h
      cases h
    exact (((sound_ofOptions false options).replies hlax requests reply hreply).tokens tokens hout
      token htoken).1
  · intro hresolve
    have hstrict : Strict true resolve := fun _ => hresolve
    exact (((sound_ofOptions true options).replies hstrict requests reply hreply).tokens tokens hout
      token htoken).2 rfl

/-- A name that begins with a `=`, a value that begins with a `}`, and a quote in quotes of the other
kind, in tokens that are cut in two. -/
theorem wellFormed_of_reply_edges :
    let resolve : Resolver := fun name => if name = "lt" then some "<" else none
    let requests : List Request :=
      [.call (.part "&lt;<A =b='x' "), .call (.part "/>\x7b\x7bC '\"' d=\x7de\x7d\x7d")]
    let token : Token := ⟨.startExpression "c"
      [⟨"\"", "", true, none⟩, ⟨"d", "\x7de", false, some false⟩] false, none⟩
    let tokens : List Token := [⟨.startTag "a" [⟨"=b", ["x"], [], true⟩] true, none⟩, token]
    ∃ reply ∈ (ofOptions ⟨false⟩).replies resolve requests, reply.outcome = .ok tokens ∧
      token ∈ tokens ∧ (∀ name, resolve name ≠ some "") ∧ token.kind.WellFormed ∧
        token.kind ≠ .chars "" := by
  intro resolve requests token tokens
  let first := (ofOptions ⟨false⟩).respond resolve (.call (.part "&lt;<A =b='x' "))
  let second := first.tokenizer.respond resolve
    (.call (.part "/>\x7b\x7bC '\"' d=\x7de\x7d\x7d"))
  have hmem : second ∈ (ofOptions ⟨false⟩).replies resolve requests := by
    simp only [requests, replies, List.mem_cons]
    exact Or.inr (Or.inl rfl)
  have hout : second.outcome = .ok tokens := by decide +kernel
  have htoken : token ∈ tokens := by simp [tokens]
  have hresolve : ∀ name, resolve name ≠ some "" := by
    intro name
    simp only [resolve]
    split <;> simp
  obtain ⟨hform, hchars⟩ := wellFormed_of_reply hmem hout htoken
  exact ⟨second, hmem, hout, htoken, hresolve, hform, hchars hresolve⟩

end TemplateMarkup.Tokenizer
