import TemplateMarkup.Proofs.Assembler.Outline
import TemplateMarkup.Proofs.Lexer.Session

/-!
# References as plain text

In three kinds of state a reference may stand. If all known names are made of letters, digits and
`#`, a reference that is not recognised is read there as so much plain text, and leaves the lexer
where the recognised one does. So a resolver has no influence on anything but the text that is
reported (`session_blind`).
-/

namespace TemplateMarkup

/-- The characters that end a text or a value, or open something in it. -/
def markup : List Char :=
  ['<', '&', '\x7b', '>', '"', '\'', ' ', '\t', '\n', '\x0c']

/-- A standard name and its `;` hold no markup. -/
theorem notMem_markup_of_isNameChar {c : Char} (h : Reference.IsNameChar c ∨ c = ';') :
    c ∉ markup := by
  have hmarkup : (markup.all fun d => d != '#' && d != ';' && !d.isAlphanum) = true := by decide
  intro hmem
  have hc := List.all_eq_true.mp hmarkup c hmem
  rcases h with (rfl | halnum) | rfl
  · cases hc
  · simp [halnum] at hc
  · cases hc

/-- A resolver whose names are written like the standard ones. -/
def Resolver.Plain (resolve : Resolver) : Prop :=
  ∀ name text, resolve name = some text → ∀ c ∈ name.toList, Reference.IsNameChar c

theorem plain_standard : Resolver.Plain Reference.standard :=
  fun _ _ => Reference.isNameChar_of_standard

variable {resolve resolve' : Resolver} {s : State} {here : Position} {c : Char}
  {rest : List Char} {append : String → Event}

/-! ## Moves at references -/

theorem State.isText_of_textEvent? (h : s.textEvent? = some append) (text : String) :
    (append text).isText = true := by
  cases s <;> cases h <;> rfl

/-- In a text a character that is no markup stands for itself. -/
theorem State.move_plain (h : s.textEvent? = some append) (hc : c ∉ markup) :
    s.move resolve here c rest = .advance s [append (String.singleton c)] := by
  simp only [markup, List.mem_cons, List.not_mem_nil, or_false, not_or] at hc
  cases s with
  | attributeValueQuoted quote => cases quote <;> cases h <;> simp [State.move, Quote.char, hc]
  | _ => cases h <;> simp [State.move, isSpace, hc]

/-- Elsewhere the resolver has no say. -/
theorem State.move_blind (h : c ≠ '&' ∨ s.textEvent? = none) :
    s.move resolve here c rest = s.move resolve' here c rest := by
  cases s with
  | data =>
      rcases h with hc | hs
      · simp [State.move, hc]
      · cases hs
  | attributeValueQuoted quote =>
      rcases h with hc | hs
      · simp [State.move, hc]
      · cases hs
  | attributeValueUnquoted =>
      rcases h with hc | hs
      · simp [State.move, hc]
      · cases hs
  | _ => rfl

theorem Move.exists_take_reference (resolve : Resolver) (s : State) (append : String → Event)
    (rest : List Char) : ∃ t, reference resolve s append rest = .take t := by
  unfold reference
  split
  · exact ⟨_, rfl⟩
  · exact ⟨_, rfl⟩
  · exact ⟨_, rfl⟩

/-- Where nothing is taken there is no reference. -/
theorem State.blind_of_ne_take (h : ∀ t, s.move resolve here c rest ≠ .take t) :
    c ≠ '&' ∨ s.textEvent? = none := by
  by_contra! hboth
  obtain ⟨rfl, hs⟩ := hboth
  obtain ⟨append, hs⟩ := Option.ne_none_iff_exists'.mp hs
  obtain ⟨t, ht⟩ := Move.exists_take_reference resolve s append rest
  rw [← State.move_ampersand here hs] at ht
  exact h t ht

/-- What a reference takes: the `&` alone, or all of a name that is known. -/
theorem Move.reference_eq_take {t : Take} (h : reference resolve s append rest = .take t) :
    (∃ note, t = { next := s, events := [append "&"], note }) ∨
      ∃ name tail text, rest = name ++ ';' :: tail ∧ resolve (String.ofList name) = some text ∧
        t = { next := s, events := [append text], extra := name.length + 1 } := by
  unfold reference at h
  split at h
  · exact Or.inl ⟨_, (Move.take.inj h).symm⟩
  · exact Or.inl ⟨_, (Move.take.inj h).symm⟩
  · rename_i length text hlookup
    have hknown : (Reference.lookup resolve rest).known? = some (length, text) := by
      rw [hlookup]
      rfl
    obtain ⟨name, tail, hrest, -, rfl, hresolve⟩ := Reference.known?_lookup_eq_some hknown
    exact Or.inr ⟨name, tail, text, hrest, hresolve, (Move.take.inj h).symm⟩

theorem Move.reference_blind (s : State) (append : String → Event) (rest : List Char) :
    ∃ note, reference Reference.blind s append rest =
      .take { next := s, events := [append "&"], note } := by
  unfold reference
  split
  · exact ⟨_, rfl⟩
  · exact ⟨_, rfl⟩
  · rename_i length text hlookup
    have hknown : (Reference.lookup Reference.blind rest).known? = some (length, text) := by
      rw [hlookup]
      rfl
    obtain ⟨_, _, _, _, _, hresolve⟩ := Reference.known?_lookup_eq_some hknown
    cases hresolve

namespace Lexer

variable {l l' m : Lexer} {es : List Event}

/-! ## Reading past references -/

/-- Characters that are no markup are read one by one, and bring nothing but text. -/
theorem steps_plain (hs : l.state.textEvent? = some append) {w : List Char}
    (hw : ∀ c ∈ w, c ∉ markup) (hunread : l.buffer.unread = w ++ rest) :
    ∃ es, Steps resolve l es { l with buffer := l.buffer.advance w.length } ∧
      skeleton es = [] := by
  induction w generalizing l with
  | nil => exact ⟨[], .refl l, rfl⟩
  | cons c w ih =>
      have hmove : l.state.move resolve l.position c (w ++ rest) =
          .advance l.state [append (String.singleton c)] :=
        State.move_plain hs (hw c (by simp))
      have hstep := Step.take hunread hmove
      have hrest : (l.buffer.advance 1).unread = w ++ rest := by simp [hunread]
      obtain ⟨es, hsteps, hes⟩ :=
        ih (l := { l with buffer := l.buffer.advance 1 }) hs (fun d hd => hw d (by simp [hd])) hrest
      refine ⟨append (String.singleton c) :: es, ?_, ?_⟩
      · rw [List.length_cons, ← Buffer.advance_succ]
        exact .head hstep hsteps
      · have htext := State.isText_of_textEvent? hs (String.singleton c)
        rw [skeleton_cons_of_isText htext, hes]

/-- A reference that is known is read as so much text where it is not recognised. -/
theorem steps_reference {name tail : List Char} (hs : l.state.textEvent? = some append)
    (hname : ∀ c ∈ name, Reference.IsNameChar c)
    (hunread : l.buffer.unread = '&' :: (name ++ ';' :: tail)) :
    ∃ es, Steps Reference.blind l es { l with buffer := l.buffer.advance (name.length + 2) } ∧
      skeleton es = [] := by
  obtain ⟨note, hmove⟩ := Move.reference_blind l.state append (name ++ ';' :: tail)
  rw [← State.move_ampersand l.position hs] at hmove
  have hstep := Step.take hunread hmove
  have hw : ∀ c ∈ name ++ [';'], c ∉ markup := by
    intro c hc
    apply notMem_markup_of_isNameChar
    rcases List.mem_append.mp hc with hc | hc
    · exact Or.inl (hname c hc)
    · exact Or.inr (List.mem_singleton.mp hc)
  have hrest : (l.buffer.advance 1).unread = (name ++ [';']) ++ tail := by simp [hunread]
  obtain ⟨es, hsteps, hes⟩ :=
    steps_plain (l := { l with buffer := l.buffer.advance 1 }) hs hw hrest
  refine ⟨append "&" :: es, ?_, ?_⟩
  · rw [← Buffer.advance_succ]
    simp only [List.length_append, List.length_singleton] at hsteps
    exact .head hstep hsteps
  · have htext := State.isText_of_textEvent? hs "&"
    rw [skeleton_cons_of_isText htext, hes]

/-- Without the references a lexer goes where it goes with them, maybe in more steps, and reports
the same but for the text. -/
theorem Step.blind (h : Step resolve l es l') (hplain : resolve.Plain) :
    ∃ es', Steps Reference.blind l es' l' ∧ skeleton es' = skeleton es := by
  cases h with
  | @reexamine c rest next es hunread hmove =>
      have hne : ∀ t, l.state.move resolve l.position c rest ≠ .take t := by simp [hmove]
      have hblind := State.blind_of_ne_take hne
      rw [State.move_blind hblind] at hmove
      exact ⟨_, .single (.reexamine hunread hmove), rfl⟩
  | @take c rest t hunread hmove =>
      by_cases hblind : c ≠ '&' ∨ l.state.textEvent? = none
      · rw [State.move_blind hblind] at hmove
        exact ⟨_, .single (.take hunread hmove), rfl⟩
      · push Not at hblind
        obtain ⟨rfl, hs⟩ := hblind
        obtain ⟨append, hs⟩ := Option.ne_none_iff_exists'.mp hs
        rw [State.move_ampersand _ hs] at hmove
        have htext := State.isText_of_textEvent? hs
        rcases Move.reference_eq_take hmove with ⟨note, rfl⟩ | ⟨name, tail, text, rfl, hname, rfl⟩
        · obtain ⟨note', hmove'⟩ := Move.reference_blind l.state append rest
          rw [← State.move_ampersand l.position hs] at hmove'
          have hstep := Step.take hunread hmove'
          exact ⟨_, .single hstep, rfl⟩
        · have hchars := hplain _ _ hname
          rw [String.toList_ofList] at hchars
          obtain ⟨es, hsteps, hes⟩ := steps_reference hs hchars hunread
          refine ⟨es, hsteps, ?_⟩
          rw [hes, skeleton_cons_of_isText (htext text), skeleton_nil]

theorem Steps.blind (h : Steps resolve l es l') (hplain : resolve.Plain) :
    ∃ es', Steps Reference.blind l es' l' ∧ skeleton es' = skeleton es := by
  induction h with
  | refl l => exact ⟨[], .refl l, rfl⟩
  | head first _ ih =>
      obtain ⟨es₁, hfirst, hes₁⟩ := first.blind hplain
      obtain ⟨es₂, hlater, hes₂⟩ := ih
      exact ⟨es₁ ++ es₂, hfirst.trans hlater, by simp [hes₁, hes₂]⟩

theorem Halts.blind {error? : Option SyntaxError} (h : Halts resolve l l' error?) :
    Halts Reference.blind l l' error? := by
  cases h with
  | exhausted hunread => exact .exhausted hunread
  | waiting hunread hmove =>
      exact .waiting hunread (State.move_eq_wait_iff.mpr (State.move_eq_wait_iff.mp hmove))
  | @rejected c rest cause hunread hmove =>
      have hne : ∀ t, l.state.move resolve l.position c rest ≠ .take t := by simp [hmove]
      have hblind := State.blind_of_ne_take hne
      rw [State.move_blind hblind] at hmove
      exact .rejected hunread hmove

/-! ## Sessions without a resolver -/

theorem feed_blind (hplain : resolve.Plain) (l : Lexer) (text : String) :
    (l.feed Reference.blind text).lexer = (l.feed resolve text).lexer ∧
      (l.feed Reference.blind text).error? = (l.feed resolve text).error? ∧
      skeleton (l.feed Reference.blind text).events =
        skeleton (l.feed resolve text).events := by
  obtain ⟨m, hsteps, hhalts⟩ := reads_feed resolve l text
  obtain ⟨es, hblind, hes⟩ := hsteps.blind hplain
  obtain ⟨hevents, hlexer, herror⟩ := feed_of_reads ⟨m, hblind, hhalts.blind⟩
  exact ⟨hlexer, herror, by rw [hevents, hes]⟩

theorem call_blind (hplain : resolve.Plain) (l : Lexer) (call : Call) :
    (l.call Reference.blind call).lexer = (l.call resolve call).lexer ∧
      (l.call Reference.blind call).error? = (l.call resolve call).error? ∧
      skeleton (l.call Reference.blind call).events =
        skeleton (l.call resolve call).events := by
  cases call with
  | part text => exact feed_blind hplain l text
  | eof => exact ⟨rfl, rfl, rfl⟩

/-- What a session makes of the lexer, and all that it reports but for text, is the same without
the resolver. -/
theorem session_blind (hplain : resolve.Plain) (l : Lexer) (calls : List Call) :
    (l.session Reference.blind calls).error? = (l.session resolve calls).error? ∧
      skeleton (l.session Reference.blind calls).events =
        skeleton (l.session resolve calls).events := by
  induction calls generalizing l with
  | nil => exact ⟨rfl, rfl⟩
  | cons call calls ih =>
      obtain ⟨hlexer, herror, hes⟩ := call_blind hplain l call
      rw [session_cons, session_cons]
      cases he : (l.call resolve call).error? with
      | some e =>
          rw [Scan.andThen_of_error he, Scan.andThen_of_error (herror.trans he)]
          exact ⟨herror, hes⟩
      | none =>
          rw [Scan.andThen_of_ok he, Scan.andThen_of_ok (herror.trans he), hlexer]
          obtain ⟨herror', hes'⟩ := ih (l.call resolve call).lexer
          refine ⟨herror', ?_⟩
          rw [skeleton_append, skeleton_append, hes, hes']

end Lexer

end TemplateMarkup
