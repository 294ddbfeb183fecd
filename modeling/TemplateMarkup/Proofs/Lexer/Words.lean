import TemplateMarkup.Proofs.Event.Construct
import TemplateMarkup.Proofs.Lexer.Lookahead
import TemplateMarkup.Proofs.Token.WellFormed

/-!
# Reading words

What the lexer does on a stretch of text that does not depend on what follows it: such stretches can
be read one after the other (`Passes.trans`). A stretch that ends a construct is read up to the state
between two tokens (`Closes`).
-/

namespace TemplateMarkup.Lexer

/-- In the state `s` the lexer reads `w`, whatever follows, reports the events and is then in the state
`s'`. -/
def Passes (resolve : Resolver) (s : State) (w : List Char) (es : List Event) (s' : State) : Prop :=
  ∀ (l : Lexer) (rest : List Char), l.state = s → l.buffer.unread = w ++ rest →
    ∃ l', Steps resolve l es l' ∧ l'.state = s' ∧ l'.buffer.unread = rest

/-- In the state `s` the lexer reads `w`, whatever follows, reports the events and then that a construct
is complete. -/
def Closes (resolve : Resolver) (s : State) (w : List Char) (es : List Event)
    (finish : Position → Event) : Prop :=
  ∀ (l : Lexer) (rest : List Char), l.state = s → l.buffer.unread = w ++ rest →
    ∃ l' stop, Steps resolve l (es ++ [finish stop]) l' ∧ l'.state = .beforeData ∧
      l'.buffer.unread = rest

variable {resolve : Resolver} {s s' s'' : State} {c : Char} {w w' : List Char}
  {es es' : List Event} {finish : Position → Event}

theorem Passes.nil (s : State) : Passes resolve s [] [] s :=
  fun l _ hs hunread => ⟨l, .refl l, hs, hunread⟩

theorem Passes.trans (h : Passes resolve s w es s') (h' : Passes resolve s' w' es' s'') :
    Passes resolve s (w ++ w') (es ++ es') s'' := by
  intro l rest hs hunread
  rw [List.append_assoc] at hunread
  obtain ⟨l₁, hsteps, hs₁, hunread₁⟩ := h l _ hs hunread
  obtain ⟨l₂, hsteps', hs₂, hunread₂⟩ := h' l₁ rest hs₁ hunread₁
  exact ⟨l₂, hsteps.trans hsteps', hs₂, hunread₂⟩

theorem Passes.closes (h : Passes resolve s w es s') (h' : Closes resolve s' w' es' finish) :
    Closes resolve s (w ++ w') (es ++ es') finish := by
  intro l rest hs hunread
  rw [List.append_assoc] at hunread
  obtain ⟨l₁, hsteps, hs₁, hunread₁⟩ := h l _ hs hunread
  obtain ⟨l₂, stop, hsteps', hs₂, hunread₂⟩ := h' l₁ rest hs₁ hunread₁
  refine ⟨l₂, stop, ?_, hs₂, hunread₂⟩
  rw [List.append_assoc]
  exact hsteps.trans hsteps'

/-- One move over all the characters. -/
theorem Passes.take {t : Take} (h : ∀ here rest, s.move resolve here c (w ++ rest) = .take t)
    (hextra : t.extra = w.length) : Passes resolve s (c :: w) t.events t.next := by
  intro l rest hs hunread
  refine ⟨l.take t, .single (.take hunread ?_), rfl, ?_⟩
  · rw [hs]
    exact h _ _
  · simp [hunread, hextra]

/-- One move over one character. -/
theorem Passes.char (h : ∀ here rest, s.move resolve here c rest = Move.advance s' es) :
    Passes resolve s [c] es s' :=
  Passes.take (t := { next := s', events := es }) (w := []) h rfl

/-- A character is handed on before it is read. -/
theorem Passes.reexamine (h : ∀ here rest, s.move resolve here c rest = .reexamine s' es)
    (h' : Passes resolve s' (c :: w) es' s'') : Passes resolve s (c :: w) (es ++ es') s'' := by
  intro l rest hs hunread
  have hstep : Step resolve l es { l with state := s' } := by
    refine .reexamine hunread ?_
    rw [hs]
    exact h _ _
  obtain ⟨l', hsteps, hs', hunread'⟩ := h' { l with state := s' } rest rfl hunread
  exact ⟨l', .head hstep hsteps, hs', hunread'⟩

/-- A character is handed on to another state, and nothing is reported. -/
theorem Passes.handOn (h : ∀ here rest, s.move resolve here c rest = .reexamine s' [])
    (h' : Passes resolve s' (c :: w) es s'') : Passes resolve s (c :: w) es s'' :=
  Passes.reexamine h h'

/-- A state stays as long as the characters are of its class. -/
theorem Passes.chars {p : Char → Prop} (event : Char → Event)
    (h : ∀ c, p c → ∀ here rest, s.move resolve here c rest = Move.advance s [event c])
    (hw : ∀ c ∈ w, p c) : Passes resolve s w (w.map event) s := by
  induction w with
  | nil => exact .nil s
  | cons c w ih =>
      have hfirst : Passes resolve s [c] [event c] s := .char (h c (hw c (by simp)))
      have hlater := ih fun d hd => hw d (by simp [hd])
      exact hfirst.trans hlater

/-- A state passes over characters that it takes no notice of. -/
theorem Passes.skip {p : Char → Prop}
    (h : ∀ c, p c → ∀ here rest, s.move resolve here c rest = Move.advance s [])
    (hw : ∀ c ∈ w, p c) : Passes resolve s w [] s := by
  induction w with
  | nil => exact .nil s
  | cons c w ih =>
      have hfirst : Passes resolve s [c] [] s := .char (h c (hw c (by simp)))
      have hlater := ih fun d hd => hw d (by simp [hd])
      exact hfirst.trans hlater

/-- A word is read by the state that its first character leads to. -/
theorem Passes.word {first later : Char → Bool} (opening : List Event) (event : Char → Event)
    (hfirst : ∀ c, first c = true → ∀ here rest,
      s.move resolve here c rest = Move.advance s' (opening ++ [event c]))
    (hlater : ∀ c, later c = true → ∀ here rest,
      s'.move resolve here c rest = Move.advance s' [event c])
    {word : String} (h : isWord first later word = true) :
    Passes resolve s word.toList (opening ++ word.toList.map event) s' := by
  obtain ⟨c, cs, hcs, hc, hcs'⟩ := isWord_iff.mp h
  have hbegin : Passes resolve s [c] (opening ++ [event c]) s' := .char (hfirst c hc)
  have hrest : Passes resolve s' cs (cs.map event) s' := .chars event hlater hcs'
  rw [hcs]
  simpa using hbegin.trans hrest

/-- A text in quotes is read by the state `inside` behind the opening quote. -/
theorem Passes.quoted (inside : State) {q : Char} {p : Char → Prop} {opening closing : List Event}
    (event : Char → Event)
    (hopen : ∀ here rest, s.move resolve here q rest = Move.advance inside opening)
    (htext : ∀ c, c ≠ q → p c → ∀ here rest,
      inside.move resolve here c rest = Move.advance inside [event c])
    (hclose : ∀ here rest, inside.move resolve here q rest = Move.advance s' closing)
    {text : String} (hquote : q ∉ text.toList) (hp : ∀ c ∈ text.toList, p c) :
    Passes resolve s (q :: text.toList ++ [q]) (opening ++ text.toList.map event ++ closing) s' := by
  have hfirst : Passes resolve s [q] opening inside := .char hopen
  have htext' : Passes resolve inside text.toList (text.toList.map event) inside := by
    refine .chars (p := fun c => c ≠ q ∧ p c) event (fun c hc => htext c hc.1 hc.2) ?_
    intro c hc
    exact ⟨fun h => hquote (h ▸ hc), hp c hc⟩
  have hlast : Passes resolve inside [q] closing s' := .char hclose
  exact (hfirst.trans htext').trans hlast

theorem Closes.char
    (h : ∀ here rest, s.move resolve here c rest =
      Move.advance .beforeData (es ++ [finish (here.next c)])) :
    Closes resolve s [c] es finish := by
  intro l rest hs hunread
  have hmove : l.state.move resolve l.position c rest =
      Move.advance .beforeData (es ++ [finish (l.position.next c)]) := by
    rw [hs]
    exact h _ _
  exact ⟨_, _, .single (.take hunread hmove), rfl, by simp [hunread]⟩

end TemplateMarkup.Lexer
