import TemplateMarkup.Proofs.Assembler.Tokens
import TemplateMarkup.Proofs.Lexer.Session
import TemplateMarkup.Tokenizer

/-!
# Sessions of a tokenizer

A tokenizer hands its tokens out call by call and keeps none. What a session yields in all is what
one assembler makes of all the events of the lexer's session (`session_of_ok`), and it fails
exactly where the lexer does (`session_of_error`).
-/

namespace TemplateMarkup

variable {resolve : Resolver}

/-! ## The events of a lexer suit the assembler -/

namespace Lexer

variable {l l' : Lexer} {es : List Event} {a a' : Assembler}

theorem Step.shape (h : Step resolve l es l') : l.state.shape.reaches es l'.state.shape = true := by
  cases h with
  | reexamine hunread hmove => exact State.shape_of_move (by rw [hmove]; rfl)
  | take hunread hmove => exact State.shape_of_move (by rw [hmove]; rfl)

/-- The assembler is as far as the state of the lexer says. -/
def Fits (l : Lexer) (a : Assembler) : Prop :=
  Assembler.Holds l.state.shape a.current a.pending

theorem fits_start (track : Bool) : Fits {} { trackLocations := track } := .idle

/-- Between two tokens nothing is under construction. -/
theorem Fits.idle (h : l.Fits a) (hs : l.state.shape = .idle) :
    a.current = none ∧ a.pending = none := by
  rw [Fits, hs] at h
  generalize a.current = current, a.pending = pending at h ⊢
  cases h
  exact ⟨rfl, rfl⟩

theorem Steps.fits (h : Steps resolve l es l') (ha : l.Fits a) :
    ∃ a', a.Receives es a' ∧ l'.Fits a' := by
  induction h generalizing a with
  | refl => exact ⟨a, .nil a, ha⟩
  | head first _ ih =>
      obtain ⟨a₁, ha₁, hfits⟩ := Assembler.receives_of_shape ha first.shape
      obtain ⟨a₂, ha₂, hfits'⟩ := ih hfits
      exact ⟨a₂, ha₁.trans ha₂, hfits'⟩

theorem Fits.step (h : l.Fits a) (hstep : Step resolve l es l') (ha : a.Receives es a') :
    l'.Fits a' := by
  obtain ⟨a₁, ha₁, hfits⟩ := Assembler.receives_of_shape h hstep.shape
  have hsame : a' = a₁ := Except.ok.inj (ha.receiveAll.symm.trans ha₁.receiveAll)
  rw [hsame]
  exact hfits

theorem Halts.state {error? : Option SyntaxError} (h : Halts resolve l l' error?) :
    l'.state = l.state := by
  cases h <;> rfl

/-- The events of a flush suit the state that it finds. -/
theorem shape_of_flush (l : Lexer) :
    l.state.shape.reaches l.flush.events l.flush.lexer.state.shape = true := by
  cases hunread : l.buffer.unread <;> cases hstate : l.state <;>
    simp [flush, settle, hunread, hstate] <;> rfl

/-- A flush completes one token at the most. -/
theorem stops_of_flush (l : Lexer) : l.flush.events.countP (·.stop?.isSome) ≤ 1 := by
  cases hunread : l.buffer.unread <;> cases hstate : l.state <;>
    simp [flush, settle, hunread, hstate, Event.stop?]

/-- Whatever a call sends suits the assembler, also when it fails. -/
theorem fits_of_call (resolve : Resolver) (call : Call) (ha : l.Fits a) :
    ∃ a', a.Receives (l.call resolve call).events a' ∧ (l.call resolve call).lexer.Fits a' := by
  cases call with
  | part text =>
      obtain ⟨m, hsteps, hhalts⟩ := reads_feed resolve l text
      obtain ⟨a', ha', hfits⟩ := hsteps.fits (a := a) ha
      refine ⟨a', ha', ?_⟩
      rwa [Fits, call, hhalts.state]
  | eof => exact Assembler.receives_of_shape ha (shape_of_flush l)

end Lexer

/-! ## Tokens handed out -/

namespace Assembler

variable {a a' : Assembler} {es : List Event}

/-- The number of tokens grows by the stops at the most. -/
theorem size_tokens_le (h : a.receiveAll es = .ok a') (hreset : .reset ∉ es) :
    a'.tokens.size ≤ a.tokens.size + es.countP (·.stop?.isSome) := by
  induction es generalizing a with
  | nil =>
      cases h
      simp
  | cons e es ih =>
      cases ha : a.receive e with
      | error m =>
          rw [receiveAll_cons, ha] at h
          cases h
      | ok a₁ =>
          rw [receiveAll_cons_of_ok ha] at h
          have hrest := ih h fun he => hreset (by simp [he])
          rw [List.countP_cons]
          cases hstop : e.stop? with
          | none =>
              have hsame := sameTokens_of_receive ha hstop (by rintro rfl; simp at hreset)
              rw [hsame.tokens] at hrest
              simpa using hrest
          | some stop =>
              rw [receive_of_stop hstop] at ha
              cases ha
              have hsize : (a.complete stop).tokens.size ≤ a.tokens.size + 1 := by
                cases hcurrent : a.current <;> simp [complete, hcurrent]
              simp only [Option.isSome_some, if_true]
              omega

end Assembler

namespace Tokenizer

variable {t : Tokenizer}

def call (resolve : Resolver) (t : Tokenizer) : Call → Reply (List Token)
  | .part text => t.feed resolve text
  | .eof =>
      let ended := t.finish
      ⟨ended.outcome.map (·.toList), ended.tokenizer, ended.log⟩

/-- Makes the calls up to the first that fails, and collects what they yield. -/
def session (resolve : Resolver) (t : Tokenizer) : List Call → Reply (List Token)
  | [] => ⟨.ok [], t, []⟩
  | call :: calls =>
      let first := t.call resolve call
      match first.outcome with
      | .error _ => first
      | .ok tokens =>
          let later := first.tokenizer.session resolve calls
          ⟨later.outcome.map (tokens ++ ·), later.tokenizer, first.log ++ later.log⟩

/-- Between two calls the assembler is where the lexer is, and holds no complete token. -/
structure Ready (t : Tokenizer) : Prop where
  fits : t.lexer.Fits t.assembler
  tokens : t.assembler.tokens = #[]

theorem ready_ofOptions (options : Options) : (ofOptions options).Ready :=
  ⟨Lexer.fits_start _, rfl⟩

theorem ready_reset (t : Tokenizer) : t.reset.Ready :=
  ⟨Lexer.fits_start _, rfl⟩

theorem toList_head?_of_length_le {α : Type} {xs : List α} (h : xs.length ≤ 1) :
    xs.head?.toList = xs := by
  cases xs with
  | nil => rfl
  | cons x more =>
      have hmore : more = [] := by simpa using h
      rw [hmore]
      rfl

/-- A call yields the tokens that its events complete. -/
theorem call_of_ok (h : t.Ready) {call : Call} {a : Assembler}
    (ha : t.assembler.Receives (t.lexer.call resolve call).events a)
    (he : (t.lexer.call resolve call).error? = none) :
    (t.call resolve call).outcome = .ok a.tokens.toList ∧
      (t.call resolve call).tokenizer =
        ⟨(t.lexer.call resolve call).lexer, { a with tokens := #[] }⟩ := by
  cases call with
  | part text =>
      change t.assembler.Receives (t.lexer.feed resolve text).events a at ha
      change (t.lexer.feed resolve text).error? = none at he
      simp [Tokenizer.call, feed, ha.receiveAll, he, Assembler.takeTokens, Lexer.call]
  | eof =>
      change t.assembler.Receives t.lexer.flush.events a at ha
      have hsize : a.tokens.size ≤ 1 := by
        have hgrown := Assembler.size_tokens_le ha.receiveAll ha.reset_notMem
        have hstops := t.lexer.stops_of_flush
        rw [h.tokens, Array.size_empty] at hgrown
        omega
      have hhead : a.tokens.toList.head?.toList = a.tokens.toList :=
        toList_head?_of_length_le (by rwa [Array.length_toList])
      have hfinish : t.finish.outcome = .ok a.tokens.toList.head? ∧
          t.finish.tokenizer = ⟨t.lexer.flush.lexer, { a with tokens := #[] }⟩ := by
        simp [finish, ha.receiveAll, Assembler.takeTokens]
      refine ⟨?_, hfinish.2⟩
      rw [Tokenizer.call, hfinish.1]
      exact congrArg Except.ok hhead

theorem call_of_error (h : t.Ready) {call : Call} {e : SyntaxError}
    (he : (t.lexer.call resolve call).error? = some e) :
    (t.call resolve call).outcome = .error (.rejected e) := by
  cases call with
  | part text =>
      obtain ⟨a, ha, -⟩ := Lexer.fits_of_call resolve (.part text) h.fits
      change t.assembler.Receives (t.lexer.feed resolve text).events a at ha
      change (t.lexer.feed resolve text).error? = some e at he
      simp [Tokenizer.call, feed, ha.receiveAll, he]
  | eof => cases he

/-- After a call that succeeds the next one may follow. -/
theorem ready_of_call (h : t.Ready) {call : Call}
    (he : (t.lexer.call resolve call).error? = none) : (t.call resolve call).tokenizer.Ready := by
  obtain ⟨a, ha, hfits⟩ := Lexer.fits_of_call resolve call h.fits
  rw [(call_of_ok h ha he).2]
  exact ⟨hfits, rfl⟩

/-- A session yields what one assembler makes of the events of all its calls. -/
theorem session_of_ok (h : t.Ready) {calls : List Call}
    (he : (t.lexer.session resolve calls).error? = none) :
    ∃ a, t.assembler.Receives (t.lexer.session resolve calls).events a ∧
      (t.session resolve calls).outcome = .ok a.tokens.toList ∧
      (t.session resolve calls).tokenizer =
        ⟨(t.lexer.session resolve calls).lexer, { a with tokens := #[] }⟩ := by
  induction calls generalizing t with
  | nil =>
      refine ⟨t.assembler, .nil _, ?_, ?_⟩
      · rw [h.tokens]
        rfl
      · rw [← h.tokens]
        rfl
  | cons call calls ih =>
      obtain ⟨hcall, hcalls, hlexer, hevents⟩ := Lexer.session_cons_of_ok he
      obtain ⟨a, ha, hfits⟩ := Lexer.fits_of_call resolve call h.fits
      obtain ⟨hout, htok⟩ := call_of_ok h ha hcall
      obtain ⟨a', ha', hout', htok'⟩ :=
        ih (t := ⟨_, { a with tokens := #[] }⟩) ⟨hfits, rfl⟩ hcalls
      -- the tokens of the first call are gone when the later ones are made
      have hbehind := ha'.behind a.tokens
      have hall : Assembler.behind a.tokens { a with tokens := #[] } = a := by
        simp [Assembler.behind]
      rw [hall] at hbehind
      refine ⟨a'.behind a.tokens, ?_, ?_, ?_⟩
      · rw [hevents]
        exact ha.trans hbehind
      · simp [session, hout, htok, hout', Assembler.behind, Except.map]
      · simp [session, hout, htok, htok', hlexer, Assembler.behind]

/-- A session fails where its lexer does. -/
theorem session_of_error (h : t.Ready) {calls : List Call} {e : SyntaxError}
    (he : (t.lexer.session resolve calls).error? = some e) :
    (t.session resolve calls).outcome = .error (.rejected e) := by
  induction calls generalizing t with
  | nil => cases he
  | cons call calls ih =>
      rw [Lexer.session_cons] at he
      cases hcall : (t.lexer.call resolve call).error? with
      | some e' =>
          rw [Scan.andThen_of_error hcall, hcall] at he
          obtain rfl := Option.some.inj he
          simp [session, call_of_error h hcall]
      | none =>
          rw [Scan.andThen_of_ok hcall] at he
          obtain ⟨a, ha, -⟩ := Lexer.fits_of_call resolve call h.fits
          obtain ⟨hout, htok⟩ := call_of_ok h ha hcall
          have hready := ready_of_call h hcall
          have hlater := ih hready (by rw [htok]; exact he)
          simp [session, hout, hlater, Except.map]

/-- A session that yields tokens is one that the lexer does not reject. -/
theorem error?_of_outcome (h : t.Ready) {calls : List Call} {tokens : List Token}
    (hout : (t.session resolve calls).outcome = .ok tokens) :
    (t.lexer.session resolve calls).error? = none := by
  cases he : (t.lexer.session resolve calls).error? with
  | none => rfl
  | some e =>
      rw [session_of_error h he] at hout
      cases hout

/-- Sessions whose lexers agree have the same outcome. -/
theorem session_outcome_congr (h : t.Ready) {calls calls' : List Call}
    (hagrees : (t.lexer.session resolve calls).Agrees (t.lexer.session resolve calls')) :
    (t.session resolve calls).outcome = (t.session resolve calls').outcome := by
  cases he : (t.lexer.session resolve calls').error? with
  | some e => rw [session_of_error h (hagrees.error?.trans he), session_of_error h he]
  | none =>
      obtain ⟨a, ha, hout, -⟩ := session_of_ok h (hagrees.error?.trans he)
      obtain ⟨a', ha', hout', -⟩ := session_of_ok h he
      have hevents := ha.receiveAll
      rw [hagrees.events, ha'.receiveAll] at hevents
      obtain rfl := Except.ok.inj hevents
      rw [hout, hout']

/-! ## Whole documents -/

/-- The chunks of a document and its end are a session. -/
theorem tokenizeChunks_outcome (t : Tokenizer) (chunks : List String) :
    (t.tokenizeChunks resolve chunks).outcome =
      (t.session resolve (chunks.map .part ++ [.eof])).outcome := by
  induction chunks generalizing t with
  | nil =>
      cases hout : t.finish.outcome <;>
        simp [tokenizeChunks, session, Tokenizer.call, hout, Except.map]
  | cons chunk chunks ih =>
      rw [tokenizeChunks, List.map_cons, List.cons_append, session]
      change _ = (match (t.feed resolve chunk).outcome with
        | .error _ => t.feed resolve chunk
        | .ok tokens => _ : Reply (List Token)).outcome
      cases hout : (t.feed resolve chunk).outcome with
      | error e => rfl
      | ok tokens =>
          simp only [ih]
          rfl

/-- A whole document is a session of one chunk. -/
theorem tokenize_outcome (t : Tokenizer) (text : String) :
    (t.tokenize resolve text).outcome =
      (t.reset.session resolve [.part text, .eof]).outcome := by
  have hchunks : (t.reset.tokenizeChunks resolve [text]).outcome =
      (t.reset.session resolve [.part text, .eof]).outcome :=
    tokenizeChunks_outcome t.reset [text]
  rw [← hchunks, tokenize, tokenizeChunks]
  cases hout : (t.reset.feed resolve text).outcome with
  | error e => rfl
  | ok tokens =>
      simp only [tokenizeChunks]
      cases (t.reset.feed resolve text).tokenizer.finish.outcome <;> rfl

end Tokenizer

end TemplateMarkup
