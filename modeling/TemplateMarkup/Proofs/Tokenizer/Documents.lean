import TemplateMarkup.Proofs.Tokenizer.Requests

/-!
# Documents

A document begins with a new tokenizer, at every reset, with every text that is tokenized whole, and
after every request that fails. The naive program for a document has no session at all: a new lexer
and a new assembler go through its calls from the first to the last, and nothing is handed out before
the end.

A tokenizer that is asked call by call hands out exactly those tokens, each of them once, and fails
where the naive program fails (`replies_accounted`). After each reply it is the tokenizer that a new
one becomes in the document at hand alone, so nothing is left of the documents before.
-/

namespace TemplateMarkup

/-- The document that a tokenizer is at: the calls since it began, and the tokens handed out for
them. -/
structure Document where
  calls : List Call := []
  yielded : List Token := []
deriving DecidableEq, Repr

namespace Document

/-- The document that a request is about, with the calls that it asks for. -/
def asked (d : Document) : Request → Document
  | .call call => { d with calls := d.calls ++ [call] }
  | .tokenize text => ⟨[.part text, .eof], []⟩
  | .reset => {}

/-- The document after the reply. A request that fails is the end of it. -/
def answered (d : Document) : Except Failure (List Token) → Document
  | .ok tokens => { d with yielded := d.yielded ++ tokens }
  | .error _ => {}

/-- All the tokens of the document, or the error of the call that fails: a new lexer goes through the
calls, and its events go to a new assembler. -/
def replay (resolve : Resolver) (options : Options) (d : Document) : Except Failure (List Token) :=
  let scan := Lexer.session resolve {} d.calls
  match scan.error? with
  | some e => .error (.rejected e)
  | none =>
      match (Tokenizer.ofOptions options).assembler.receiveAll scan.events with
      | .error m => .error (.misuse m)
      | .ok a => .ok a.tokens.toList

/-- The tokenizer is at the document, and knows of no other. -/
structure Current (resolve : Resolver) (options : Options) (d : Document) (t : Tokenizer) :
    Prop where
  replay : d.replay resolve options = .ok d.yielded
  tokenizer : t = ((Tokenizer.ofOptions options).session resolve d.calls).tokenizer

/-- Each reply in its turn hands out what the replay of the document has beyond the tokens that were
handed out before, or fails as the replay does. -/
inductive Accounted (resolve : Resolver) (options : Options) :
    Document → List Request → List (Reply (List Token)) → Prop
  | nil (d : Document) : Accounted resolve options d [] []
  | cons {d : Document} {request : Request} {requests : List Request}
      {reply : Reply (List Token)} {replies : List (Reply (List Token))}
      (outcome : (d.asked request).replay resolve options =
        reply.outcome.map ((d.asked request).yielded ++ ·))
      (current : ((d.asked request).answered reply.outcome).Current resolve options reply.tokenizer)
      (later : Accounted resolve options ((d.asked request).answered reply.outcome) requests replies) :
      Accounted resolve options d (request :: requests) (reply :: replies)

end Document

namespace Tokenizer

variable {resolve : Resolver} {options : Options} {t : Tokenizer} {d : Document}

/-! ## Sessions, call by call -/

/-- One call more, after calls that succeed. -/
theorem session_concat {calls : List Call} {tokens : List Token} (call : Call)
    (h : (t.session resolve calls).outcome = .ok tokens) :
    (t.session resolve (calls ++ [call])).outcome =
        ((t.session resolve calls).tokenizer.call resolve call).outcome.map (tokens ++ ·) ∧
      (t.session resolve (calls ++ [call])).tokenizer =
        ((t.session resolve calls).tokenizer.call resolve call).tokenizer := by
  induction calls generalizing t tokens with
  | nil =>
      obtain rfl : [] = tokens := Except.ok.inj h
      cases hcall : (t.call resolve call).outcome <;> simp [session, hcall, Except.map]
  | cons first calls ih =>
      cases hfirst : (t.call resolve first).outcome with
      | error f => simp [session, hfirst] at h
      | ok tokens₁ =>
          simp only [List.cons_append, session, hfirst] at h ⊢
          cases hlater : ((t.call resolve first).tokenizer.session resolve calls).outcome with
          | error f => simp [hlater, Except.map] at h
          | ok tokens₂ =>
              obtain rfl : tokens₁ ++ tokens₂ = tokens := by simpa [hlater, Except.map] using h
              obtain ⟨houtcome, htokenizer⟩ := ih hlater
              refine ⟨?_, htokenizer⟩
              rw [houtcome]
              cases (((t.call resolve first).tokenizer.session resolve calls).tokenizer.call resolve
                call).outcome <;> simp [Except.map]

/-- A reset forgets that a call was made. -/
theorem reset_call (h : t.Ready) (call : Call) : (t.call resolve call).tokenizer.reset = t.reset := by
  cases he : (t.lexer.call resolve call).error? with
  | some e =>
      rw [tokenizer_of_error h he]
      rfl
  | none =>
      obtain ⟨a, ha, -⟩ := Lexer.fits_of_call resolve call h.fits
      rw [(call_of_ok h ha he).2]
      simp [reset, Assembler.reset, ha.trackLocations]

/-- A session that fails leaves a tokenizer that was reset. -/
theorem tokenizer_session_of_error (h : t.Ready) {calls : List Call} {f : Failure}
    (hout : (t.session resolve calls).outcome = .error f) :
    (t.session resolve calls).tokenizer = t.reset := by
  induction calls generalizing t with
  | nil => cases hout
  | cons call calls ih =>
      cases he : (t.lexer.call resolve call).error? with
      | some e =>
          rw [session, call_of_error h he]
          exact tokenizer_of_error h he
      | none =>
          obtain ⟨a, ha, -⟩ := Lexer.fits_of_call resolve call h.fits
          have hcall := (call_of_ok h ha he).1
          simp only [session, hcall] at hout ⊢
          have hreset : (t.call resolve call).tokenizer.reset = t.reset := reset_call h call
          rw [← hreset]
          apply ih (h.call call)
          cases hlater : ((t.call resolve call).tokenizer.session resolve calls).outcome with
          | error f' => simpa [hlater, Except.map] using hout
          | ok tokens => simp [hlater, Except.map] at hout

/-- The tokenizer of a session has the options that it was made with. -/
theorem reset_session (h : t.Ready) (calls : List Call) :
    (t.session resolve calls).tokenizer.reset = t.reset := by
  induction calls generalizing t with
  | nil => rfl
  | cons call calls ih =>
      cases hcall : (t.call resolve call).outcome with
      | error f =>
          simp only [session, hcall]
          exact reset_call h call
      | ok tokens =>
          simp only [session, hcall]
          rw [ih (h.call call), reset_call h call]

/-! ## The document at hand -/

/-- Handing tokens out on the way changes nothing in what they are. -/
theorem replay_eq_session (d : Document) :
    d.replay resolve options = ((ofOptions options).session resolve d.calls).outcome := by
  have hready := ready_ofOptions options
  cases he : (Lexer.session resolve {} d.calls).error? with
  | some e =>
      rw [session_of_error hready he]
      simp [Document.replay, he]
  | none =>
      obtain ⟨a, ha, hout, -⟩ := session_of_ok hready he
      have hall : (ofOptions options).assembler.receiveAll
          (Lexer.session resolve {} d.calls).events = .ok a := ha.receiveAll
      rw [hout]
      simp [Document.replay, he, hall]

theorem current_new : ({} : Document).Current resolve options (ofOptions options) := ⟨rfl, rfl⟩

theorem current_of_answered {outcome : Except Failure (List Token)} {t' : Tokenizer}
    (hreplay : d.replay resolve options = outcome.map (d.yielded ++ ·))
    (hok : ∀ tokens, outcome = .ok tokens →
      t' = ((ofOptions options).session resolve d.calls).tokenizer)
    (herror : ∀ f, outcome = .error f → t' = ofOptions options) :
    (d.answered outcome).Current resolve options t' := by
  cases outcome with
  | ok tokens => exact ⟨hreplay, hok tokens rfl⟩
  | error f =>
      rw [herror f rfl]
      exact current_new

/-- What a request comes to is decided by the document at hand. -/
theorem respond_of_current (h : d.Current resolve options t) (request : Request) :
    (d.asked request).replay resolve options =
        (t.respond resolve request).outcome.map ((d.asked request).yielded ++ ·) ∧
      ((d.asked request).answered (t.respond resolve request).outcome).Current resolve options
        (t.respond resolve request).tokenizer := by
  obtain ⟨hreplay, rfl⟩ := h
  have hreset : ((ofOptions options).session resolve d.calls).tokenizer.reset = ofOptions options :=
    reset_session (ready_ofOptions options) d.calls
  cases request with
  | call call =>
      rw [replay_eq_session] at hreplay
      obtain ⟨houtcome, htokenizer⟩ := session_concat call hreplay
      have hreply : (d.asked (.call call)).replay resolve options =
          (respond resolve _ (.call call)).outcome.map (d.yielded ++ ·) :=
        (replay_eq_session _).trans houtcome
      refine ⟨hreply, current_of_answered hreply (fun _ _ => htokenizer.symm) ?_⟩
      intro f hf
      have hfails : ((ofOptions options).session resolve (d.calls ++ [call])).outcome = .error f := by
        rw [houtcome]
        exact congrArg _ hf
      rw [respond, ← htokenizer]
      exact tokenizer_session_of_error (ready_ofOptions options) hfails
  | tokenize text =>
      rw [respond, tokenize_eq_session, hreset]
      have hreply : (d.asked (.tokenize text)).replay resolve options =
          ((ofOptions options).session resolve [.part text, .eof]).outcome.map ([] ++ ·) := by
        rw [replay_eq_session]
        cases hout : ((ofOptions options).session resolve [.part text, .eof]).outcome <;>
          simp [Document.asked, hout, Except.map]
      exact ⟨hreply, current_of_answered hreply (fun _ _ => rfl)
        fun f hf => tokenizer_session_of_error (ready_ofOptions options) hf⟩
  | reset =>
      rw [respond, hreset]
      exact ⟨rfl, current_new⟩

theorem accounted_of_current (h : d.Current resolve options t) (requests : List Request) :
    d.Accounted resolve options requests (t.replies resolve requests) := by
  induction requests generalizing t d with
  | nil => exact .nil d
  | cons request requests ih =>
      obtain ⟨houtcome, hcurrent⟩ := respond_of_current h request
      exact .cons houtcome hcurrent (ih hcurrent)

/-- **Every token once, and no document in another.** Whatever a new tokenizer is asked, in whatever
order, each reply is accounted for by the document at hand: the tokens handed out for its calls are
those of the replay, in order, and a request fails exactly when the replay does, with the same
error. -/
theorem replies_accounted (resolve : Resolver) (options : Options) (requests : List Request) :
    ({} : Document).Accounted resolve options requests
      ((ofOptions options).replies resolve requests) :=
  accounted_of_current current_new requests

end Tokenizer

end TemplateMarkup
