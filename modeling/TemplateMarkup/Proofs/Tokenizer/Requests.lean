import TemplateMarkup.Proofs.Tokenizer.Session

/-!
# Requests to a tokenizer

A tokenizer can be asked for a whole document, for the next part of one, for its end and for a new
beginning, in any order. A request that fails leaves a tokenizer for the next one, so a list of
requests is answered to its end. No request is ever answered by a misuse (`Ready.replies`).
-/

namespace TemplateMarkup

/-- What a tokenizer can be asked for. -/
inductive Request where
  | call (call : Call)
  | tokenize (text : String)
  | reset
deriving DecidableEq, Repr

theorem Assembler.Receives.trackLocations {a a' : Assembler} {es : List Event}
    (h : a.Receives es a') : a'.trackLocations = a.trackLocations := by
  induction h with
  | nil => rfl
  | @cons _ _ a a₁ _ e _ _ hσ ha _ ih =>
      rw [ih]
      cases hstop : e.stop? with
      | none => exact (sameTokens_of_receive ha hstop (Shape.ne_reset_of_receive hσ)).trackLocations
      | some stop =>
          rw [receive_of_stop hstop] at ha
          cases ha
          cases hcurrent : a.current <;> simp [Assembler.complete, hcurrent]

namespace Tokenizer

variable {resolve : Resolver} {t : Tokenizer}

def respond (resolve : Resolver) (t : Tokenizer) : Request → Reply (List Token)
  | .call call => t.call resolve call
  | .tokenize text => t.tokenize resolve text
  | .reset => ⟨.ok [], t.reset, []⟩

/-- The replies to the requests, whether or not one of them fails. -/
def replies (resolve : Resolver) (t : Tokenizer) : List Request → List (Reply (List Token))
  | [] => []
  | request :: requests =>
      t.respond resolve request ::
        replies resolve (t.respond resolve request).tokenizer requests

/-- A whole document is a session of a tokenizer that was reset. -/
theorem tokenize_eq_session (resolve : Resolver) (t : Tokenizer) (text : String) :
    t.tokenize resolve text = t.reset.session resolve [.part text, .eof] := by
  have hfeed : t.reset.call resolve (.part text) = t.reset.feed resolve text := rfl
  rw [tokenize, session, hfeed]
  cases (t.reset.feed resolve text).outcome with
  | error e => rfl
  | ok tokens =>
      generalize (t.reset.feed resolve text).tokenizer = fed
      cases hended : fed.finish.outcome <;> simp [session, Tokenizer.call, hended, Except.map]

/-! ## Between two requests -/

/-- A call that fails leaves a tokenizer that was reset. -/
theorem tokenizer_of_error (h : t.Ready) {call : Call} {e : SyntaxError}
    (he : (t.lexer.call resolve call).error? = some e) :
    (t.call resolve call).tokenizer = t.reset := by
  cases call with
  | part text =>
      obtain ⟨a, ha, -⟩ := Lexer.fits_of_call resolve (.part text) h.fits
      have htrack := ha.trackLocations
      change t.assembler.Receives (t.lexer.feed resolve text).events a at ha
      change (t.lexer.feed resolve text).error? = some e at he
      simp [Tokenizer.call, feed, ha.receiveAll, he, reset, Assembler.reset, htrack]
  | eof => cases he

theorem log_of_call (h : t.Ready) (call : Call) :
    (t.call resolve call).log = (t.lexer.call resolve call).log ++
      ((t.lexer.call resolve call).error?.map LogEntry.rejected).toList := by
  obtain ⟨a, ha, -⟩ := Lexer.fits_of_call resolve call h.fits
  cases call with
  | part text =>
      change t.assembler.Receives (t.lexer.feed resolve text).events a at ha
      change (t.feed resolve text).log = (t.lexer.feed resolve text).log ++
        ((t.lexer.feed resolve text).error?.map LogEntry.rejected).toList
      cases he : (t.lexer.feed resolve text).error? <;> simp [feed, ha.receiveAll, he]
  | eof =>
      change t.assembler.Receives t.lexer.flush.events a at ha
      change t.finish.log = t.lexer.flush.log ++ []
      simp [finish, ha.receiveAll]

/-- Whatever a call comes to, it leaves a tokenizer that is ready for the next. -/
theorem Ready.call (h : t.Ready) (call : Call) : (t.call resolve call).tokenizer.Ready := by
  cases he : (t.lexer.call resolve call).error? with
  | none => exact ready_of_call h he
  | some e =>
      rw [tokenizer_of_error h he]
      exact ready_reset t

theorem call_ne_misuse (h : t.Ready) (call : Call) (m : Misuse) :
    (t.call resolve call).outcome ≠ .error (.misuse m) := by
  cases he : (t.lexer.call resolve call).error? with
  | none =>
      obtain ⟨a, ha, -⟩ := Lexer.fits_of_call resolve call h.fits
      simp [(call_of_ok h ha he).1]
  | some e => simp [call_of_error h he]

theorem Ready.session (h : t.Ready) (calls : List Call) :
    (t.session resolve calls).tokenizer.Ready := by
  induction calls generalizing t with
  | nil => exact h
  | cons call calls ih =>
      cases hout : (t.call resolve call).outcome with
      | error f => simpa [Tokenizer.session, hout] using h.call call
      | ok tokens => simpa [Tokenizer.session, hout] using ih (h.call call)

theorem session_ne_misuse (h : t.Ready) (calls : List Call) (m : Misuse) :
    (t.session resolve calls).outcome ≠ .error (.misuse m) := by
  cases he : (t.lexer.session resolve calls).error? with
  | none =>
      obtain ⟨a, -, hout, -⟩ := session_of_ok h he
      simp [hout]
  | some e => simp [session_of_error h he]

theorem Ready.respond (h : t.Ready) (request : Request) :
    (t.respond resolve request).tokenizer.Ready := by
  cases request with
  | call call => exact h.call call
  | tokenize text =>
      rw [Tokenizer.respond, tokenize_eq_session]
      exact (ready_reset t).session _
  | reset => exact ready_reset t

theorem respond_ne_misuse (h : t.Ready) (request : Request) (m : Misuse) :
    (t.respond resolve request).outcome ≠ .error (.misuse m) := by
  cases request with
  | call call => exact call_ne_misuse h call m
  | tokenize text =>
      rw [Tokenizer.respond, tokenize_eq_session]
      exact session_ne_misuse (ready_reset t) _ m
  | reset => simp [Tokenizer.respond]

/-- Every reply leaves a tokenizer for the next request, and none is a misuse. -/
theorem Ready.replies (h : t.Ready) (requests : List Request) :
    ∀ reply ∈ t.replies resolve requests,
      reply.tokenizer.Ready ∧ ∀ m, reply.outcome ≠ .error (.misuse m) := by
  induction requests generalizing t with
  | nil => simp [Tokenizer.replies]
  | cons request requests ih =>
      intro reply hreply
      rcases List.mem_cons.mp hreply with rfl | hlater
      · exact ⟨h.respond request, respond_ne_misuse h request⟩
      · exact ih (h.respond request) reply hlater

end Tokenizer

end TemplateMarkup
