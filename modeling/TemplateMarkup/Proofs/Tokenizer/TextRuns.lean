import Mathlib.Data.List.Chain
import TemplateMarkup.Proofs.Assembler.Targets
import TemplateMarkup.Proofs.Lexer.Stops
import TemplateMarkup.Proofs.Tokenizer.Session

/-!
# Text runs are maximal

No two text runs stand side by side, however a document is cut into chunks (`chars_not_adjacent`). A
run is left only for markup, and from markup the lexer comes back only by completing a token that is
no text. So where a run is open or may begin, the token before it is no text (`Parted`). The end of
the input may complete a run in front of nothing, which is why there must be one end only.
-/

namespace TemplateMarkup

def TokenKind.isChars : TokenKind → Bool
  | .chars _ => true
  | _ => false

/-- The two may stand side by side: one of them is no text. -/
def Token.Apart (t u : Token) : Prop :=
  ¬(t.kind.isChars = true ∧ u.kind.isChars = true)

/-- A text run is open, or may begin. -/
def State.inText : State → Bool
  | .beforeData => true
  | .data => true
  | .possibleExpressionOpen => true
  | _ => false

variable {resolve : Resolver} {s next : State} {here stop : Position} {c : Char}
  {rest : List Char} {es : List Event} {e : Event}

/-- Markup is left between two tokens and nowhere else. -/
theorem State.inText_of_move (h : (s.move resolve here c rest).effect? = some (es, next))
    (hnext : next.inText = true) : s.inText = true ∨ next = .beforeData := by
  cases s <;> simp [State.move, Move.reference] at h <;> (repeat' split at h) <;> cases h <;>
    simp_all [State.inText]

/-- No text run is completed on the way to a place between two tokens. -/
theorem State.finishChars_notMem
    (h : (s.move resolve here c rest).effect? = some (es, .beforeData)) :
    .finishChars stop ∉ es := by
  cases s <;> simp [State.move, Move.reference] at h <;> (repeat' split at h) <;> cases h <;>
    simp [Move.noValue]

theorem Event.Finishes.isChars {kind : TokenKind} (h : e.Finishes stop kind)
    (he : e ≠ .finishChars stop) : kind.isChars = false := by
  cases h with
  | chars text => exact absurd rfl he
  | _ => rfl

namespace Assembler

variable {a a' : Assembler}

/-- The token that a closing event completes is one of its kind. -/
theorem Receives.finishes (h : a.Receives (es ++ [e]) a') (hes : Unstopped es)
    (he : e.stop? = some stop) :
    ∃ t : Token, e.Finishes stop t.kind ∧ a'.tokens = a.tokens.push t := by
  obtain ⟨a₁, hfirst, hlast⟩ := h.of_append
  rw [← (hfirst.sameTokens hes).tokens]
  cases hlast with
  | cons hholds hσ ha later =>
      cases later
      rcases keeps_or_discards hholds hσ ha with hkeeps | hdiscards
      · cases hkeeps with
        | begins hbegins => cases e <;> cases he <;> cases hbegins
        | finishes hfinishes =>
            cases hfinishes <;> cases he <;> exact ⟨_, by constructor, rfl⟩
        | _ => cases he
      · cases hdiscards with
        | expressionAttribute hattribute => cases e <;> cases he <;> cases hattribute
        | _ => cases he

end Assembler

namespace Lexer

variable {l l' : Lexer} {a a' : Assembler}

theorem Step.effect? (h : Step resolve l es l') :
    ∃ c rest, (l.state.move resolve l.position c rest).effect? = some (es, l'.state) := by
  cases h with
  | @reexamine c rest next es hunread hmove => exact ⟨c, rest, by rw [hmove]; rfl⟩
  | @take c rest t hunread hmove => exact ⟨c, rest, by rw [hmove]; rfl⟩

/-- The end of the input reports something only where a text run is open or may begin. -/
theorem inText_of_flush (h : l.flush.events ≠ []) : l.state.inText = true := by
  revert h
  cases hunread : l.buffer.unread <;> cases hstate : l.state <;>
    simp [flush, settle, hunread, hstate, State.inText]

/-! ## The invariant -/

/-- No text runs of `a` stand side by side, and none stands where `l` may add to one. -/
structure Parted (l : Lexer) (a : Assembler) : Prop where
  apart : a.tokens.toList.IsChain Token.Apart
  last : l.state.inText = true → ∀ t ∈ a.tokens.toList.getLast?, t.kind.isChars = false

theorem parted_start (track : Bool) : Parted {} { trackLocations := track } := by
  constructor
  · exact .nil
  · intro _ t ht
    cases ht

/-- A token that is no text may follow any other. -/
theorem Parted.markup (h : Parted l a) {t : Token} (ht : t.kind.isChars = false)
    (htokens : a'.tokens = a.tokens.push t) : Parted l' a' := by
  constructor
  · rw [htokens, Array.toList_push, List.isChain_append]
    refine ⟨h.apart, List.isChain_singleton t, ?_⟩
    rintro u - v hv ⟨-, hchars⟩
    obtain rfl : t = v := by simpa using hv
    rw [ht] at hchars
    cases hchars
  · intro _ u hu
    rw [htokens, Array.toList_push, List.getLast?_concat] at hu
    obtain rfl : t = u := by simpa using hu
    exact ht

/-- A token may follow one that is no text. -/
theorem Parted.apart_push (h : Parted l a) (hs : l.state.inText = true) {t : Token}
    (htokens : a'.tokens = a.tokens.push t) : a'.tokens.toList.IsChain Token.Apart := by
  rw [htokens, Array.toList_push, List.isChain_append]
  refine ⟨h.apart, List.isChain_singleton t, ?_⟩
  rintro u hu v - ⟨hchars, -⟩
  rw [h.last hs u hu] at hchars
  cases hchars

theorem Parted.step (h : Parted l a) (hstep : Step resolve l es l') (ha : a.Receives es a') :
    Parted l' a' := by
  obtain ⟨c₀, rest₀, hmove⟩ := hstep.effect?
  obtain ⟨c, rest, n, -, -, -, heffect⟩ := hstep.effect
  generalize hnext : l'.state = next at heffect hmove
  cases heffect with
  | inside hes hbetween _ _ =>
      constructor
      · rw [(ha.sameTokens hes).tokens]
        exact h.apart
      · intro hs
        rw [hnext] at hs
        rw [(ha.sameTokens hes).tokens]
        exact h.last ((State.inText_of_move hmove hs).resolve_right hbetween)
  | closes hes he =>
      obtain ⟨t, ht, htokens⟩ := ha.finishes hes he
      refine h.markup (ht.isChars ?_) htokens
      rintro rfl
      exact State.finishChars_notMem hmove (List.mem_append_right _ (List.mem_singleton_self _))
  | opens hs hnext' =>
      have hreceives : a.Receives ([] ++ [.finishChars l.position]) a' := ha
      obtain ⟨t, -, htokens⟩ := hreceives.finishes .nil rfl
      have hl : l.state.inText = true := by
        rcases hs with ⟨hs, -⟩ | hs <;> rw [hs] <;> rfl
      constructor
      · exact h.apart_push hl htokens
      · intro hs'
        rw [hnext] at hs'
        rcases hnext' with rfl | rfl <;> cases hs'

/-- The end of the input completes a text run behind markup, or nothing. -/
theorem Parted.flush (h : Parted l a) (hrest : Halts resolve l l none)
    (ha : a.Receives l.flush.events a') : a'.tokens.toList.IsChain Token.Apart := by
  have hflush := flushes_of_rest hrest
  have hs := inText_of_flush (l := l)
  generalize l.flush.events = es, l.flush.lexer = m at hflush hs ha
  cases hflush with
  | unfinished =>
      cases ha
      exact h.apart
  | completes _ hes _ =>
      obtain ⟨t, -, htokens⟩ := ha.finishes hes rfl
      exact h.apart_push (hs (by simp)) htokens

/-- The chunks of a document, and one end of the input. -/
theorem Parted.document {earlier chunks : List String} (h : Parted l a)
    (hread : HasRead resolve earlier l)
    (he : (l.session resolve (chunks.map .part ++ [.eof])).error? = none)
    (ha : a.Receives (l.session resolve (chunks.map .part ++ [.eof])).events a') :
    a'.tokens.toList.IsChain Token.Apart := by
  induction chunks generalizing l a earlier with
  | nil =>
      change a.Receives (l.session resolve [.eof]).events a' at ha
      rw [events_session_eof] at ha
      exact h.flush hread.rest ha
  | cons chunk chunks ih =>
      rw [List.map_cons, List.cons_append] at he ha
      obtain ⟨hcall, hcalls, -, hevents⟩ := session_cons_of_ok he
      rw [hevents] at ha
      obtain ⟨a₁, hfirst, hlater⟩ := ha.of_append
      obtain ⟨hsteps, -⟩ := steps_feed hcall
      have hreceived : Parted (l.receive chunk) a := ⟨h.apart, h.last⟩
      have hread' : Parted (l.feed resolve chunk).lexer a₁ :=
        hsteps.keeps (fun h hstep ha => h.step hstep ha) hfirst hreceived
      exact ih hread' (hread.call hcall) hcalls hlater

end Lexer

namespace Tokenizer

variable {options : Options} {chunks : List String} {tokens : List Token}

/-- **Text runs are maximal.** Of two tokens side by side one is no text, whatever the chunks of the
document. -/
theorem chars_not_adjacent
    (h : ((ofOptions options).tokenizeChunks resolve chunks).outcome = .ok tokens) :
    tokens.IsChain Token.Apart := by
  rw [tokenizeChunks_outcome] at h
  have hready := ready_ofOptions options
  have he := error?_of_outcome hready h
  obtain ⟨a, ha, hout, -⟩ := session_of_ok hready he
  obtain rfl : a.tokens.toList = tokens := Except.ok.inj (hout.symm.trans h)
  exact (Lexer.parted_start options.trackLocations).document Lexer.hasRead_nil he ha

/-- A run that begins with a lone brace, and one that ends with a brace at the end of a chunk: each
has markup on both sides. -/
theorem chars_not_adjacent_brace :
    let chunks := ["\x7b", "a<b>", "c\x7b", "\x7bd\x7d\x7d", "\x7b"]
    let tokens : List Token := [⟨.chars "\x7ba", none⟩, ⟨.startTag "b" [] false, none⟩,
      ⟨.chars "c", none⟩, ⟨.startExpression "d" [] false, none⟩, ⟨.chars "\x7b", none⟩]
    ((ofOptions ⟨false⟩).tokenizeChunks Reference.standard chunks).outcome = .ok tokens ∧
      tokens.IsChain Token.Apart := by
  intro chunks tokens
  have h : ((ofOptions ⟨false⟩).tokenizeChunks Reference.standard chunks).outcome =
      .ok tokens := by
    decide +kernel
  exact ⟨h, chars_not_adjacent h⟩

end Tokenizer

end TemplateMarkup
