import TemplateMarkup.Lexer.Basic
import TemplateMarkup.Proofs.Source.Position

/-!
# Reading as a relation

A step carries out one move. Reading on is a run of steps up to a lexer that halts: because the
text is exhausted, because the state waits, or because the next character is rejected. The
relation forgets the log, and `Lexer.run` is its only answer (`reads_iff`).
-/

namespace TemplateMarkup.Lexer

variable {resolve : Resolver} {l l' l'' m : Lexer} {es es' : List Event}

/-- One move, carried out, with the events that it sends. -/
inductive Step (resolve : Resolver) : Lexer → List Event → Lexer → Prop
  | reexamine {l : Lexer} {c : Char} {rest : List Char} {next : State} {es : List Event}
      (hunread : l.buffer.unread = c :: rest)
      (hmove : l.state.move resolve l.position c rest = .reexamine next es) :
      Step resolve l es { l with state := next }
  | take {l : Lexer} {c : Char} {rest : List Char} {t : Take}
      (hunread : l.buffer.unread = c :: rest)
      (hmove : l.state.move resolve l.position c rest = .take t) :
      Step resolve l t.events (l.take t)

/-- Any number of steps, with their events in order. -/
inductive Steps (resolve : Resolver) : Lexer → List Event → Lexer → Prop
  | refl (l : Lexer) : Steps resolve l [] l
  | head {l l' l'' : Lexer} {es es' : List Event} (first : Step resolve l es l')
      (later : Steps resolve l' es' l'') : Steps resolve l (es ++ es') l''

/-- No step follows: the lexer that reading leaves behind, and the error if there is one. -/
inductive Halts (resolve : Resolver) : Lexer → Lexer → Option SyntaxError → Prop
  | exhausted {l : Lexer} (hunread : l.buffer.unread = []) : Halts resolve l l none
  | waiting {l : Lexer} {c : Char} {rest : List Char} (hunread : l.buffer.unread = c :: rest)
      (hmove : l.state.move resolve l.position c rest = .wait) : Halts resolve l l none
  | rejected {l : Lexer} {c : Char} {rest : List Char} {cause : SyntaxError.Cause}
      (hunread : l.buffer.unread = c :: rest)
      (hmove : l.state.move resolve l.position c rest = .reject cause) :
      Halts resolve l { l with buffer := l.buffer.advance 1 }
        (some (syntaxError { l with buffer := l.buffer.advance 1 } cause))

/-- Reading as far as the text allows. -/
def Reads (resolve : Resolver) (l : Lexer) (es : List Event) (l' : Lexer)
    (error? : Option SyntaxError) : Prop :=
  ∃ m, Steps resolve l es m ∧ Halts resolve m l' error?

theorem Steps.single (h : Step resolve l es l') : Steps resolve l es l' := by
  simpa using Steps.head h (.refl l')

theorem Steps.trans (h : Steps resolve l es l') (h' : Steps resolve l' es' l'') :
    Steps resolve l (es ++ es') l'' := by
  induction h with
  | refl => exact h'
  | head first _ ih =>
      rw [List.append_assoc]
      exact .head first (ih h')

/-- A run of steps is empty or has a last one. -/
theorem Steps.last (h : Steps resolve l es l') :
    (l = l' ∧ es = []) ∨ ∃ m es₁ es₂, Steps resolve l es₁ m ∧ Step resolve m es₂ l' ∧
      es = es₁ ++ es₂ := by
  induction h with
  | refl => exact Or.inl ⟨rfl, rfl⟩
  | @head l _ _ es es' first later ih =>
      right
      rcases ih with ⟨rfl, rfl⟩ | ⟨m, es₁, es₂, hsteps, hstep, rfl⟩
      · exact ⟨l, [], es, .refl l, first, by simp⟩
      · exact ⟨m, es ++ es₁, es₂, .head first hsteps, hstep, by simp⟩

/-! ## What a step leaves as it is -/

@[simp] theorem buffer_take (l : Lexer) (t : Take) :
    (l.take t).buffer = l.buffer.advance (t.extra + 1) := by
  cases hmark : t.mark with
  | none => simp [take, hmark]
  | some mark => cases mark <;> simp [take, hmark, Lexer.mark]

@[simp] theorem state_take (l : Lexer) (t : Take) : (l.take t).state = t.next := rfl

@[simp] theorem afterReturn_take (l : Lexer) (t : Take) :
    (l.take t).afterReturn = l.afterReturn := by
  cases hmark : t.mark with
  | none => simp [take, hmark]
  | some mark => cases mark <;> simp [take, hmark, Lexer.mark]

/-- The cursor of `l'` is that of `l`, moved over the characters `w`. -/
structure Over (l : Lexer) (w : List Char) (l' : Lexer) : Prop where
  unread : l.buffer.unread = w ++ l'.buffer.unread
  consumed : l'.buffer.consumed = w.reverse ++ l.buffer.consumed
  position : l'.position = l.position.after w

theorem Over.refl (l : Lexer) : Over l [] l := ⟨rfl, rfl, rfl⟩

theorem Over.trans {w w' : List Char} (h : Over l w l') (h' : Over l' w' l'') :
    Over l (w ++ w') l'' := by
  refine ⟨?_, ?_, ?_⟩
  · rw [h.unread, h'.unread, List.append_assoc]
  · rw [h'.consumed, h.consumed, List.reverse_append, List.append_assoc]
  · rw [h'.position, h.position, Position.after_append]

theorem Over.toList {w : List Char} (h : Over l w l') : l'.buffer.toList = l.buffer.toList := by
  rw [Buffer.toList, Buffer.toList, h.consumed, h.unread]
  simp

theorem over_advance (l : Lexer) (n : Nat) :
    Over l (l.buffer.unread.take n) { l with buffer := l.buffer.advance n } := by
  refine ⟨?_, ?_, ?_⟩
  · simp
  · exact Buffer.consumed_advance _ _
  · exact Buffer.position_advance _ _

theorem over_take (l : Lexer) (t : Take) :
    Over l (l.buffer.unread.take (t.extra + 1)) (l.take t) := by
  refine ⟨?_, ?_, ?_⟩
  · simp
  · rw [buffer_take]
    exact Buffer.consumed_advance _ _
  · rw [position, buffer_take]
    exact Buffer.position_advance _ _

theorem Step.over (h : Step resolve l es l') : ∃ w, Over l w l' := by
  cases h with
  | reexamine => exact ⟨[], rfl, rfl, rfl⟩
  | take => exact ⟨_, over_take _ _⟩

theorem Steps.over (h : Steps resolve l es l') : ∃ w, Over l w l' := by
  induction h with
  | refl => exact ⟨[], .refl _⟩
  | head first _ ih =>
      obtain ⟨w, hw⟩ := first.over
      obtain ⟨w', hw'⟩ := ih
      exact ⟨w ++ w', hw.trans hw'⟩

/-- A run goes over the text that it does not leave. -/
theorem Steps.over_of_unread {w : List Char} (h : Steps resolve l es l')
    (hunread : l.buffer.unread = w ++ l'.buffer.unread) : Over l w l' := by
  obtain ⟨v, hv⟩ := h.over
  have hsame : v ++ l'.buffer.unread = w ++ l'.buffer.unread := hv.unread.symm.trans hunread
  rwa [List.append_cancel_right hsame] at hv

theorem Step.toList (h : Step resolve l es l') : l'.buffer.toList = l.buffer.toList := by
  obtain ⟨w, hw⟩ := h.over
  exact hw.toList

/-- Reading does not touch the text. -/
theorem Steps.toList (h : Steps resolve l es l') : l'.buffer.toList = l.buffer.toList := by
  obtain ⟨w, hw⟩ := h.over
  exact hw.toList

theorem Step.afterReturn (h : Step resolve l es l') : l'.afterReturn = l.afterReturn := by
  cases h with
  | reexamine => rfl
  | take => exact afterReturn_take _ _

theorem Steps.afterReturn (h : Steps resolve l es l') : l'.afterReturn = l.afterReturn := by
  induction h with
  | refl => rfl
  | head first _ ih => rw [ih, first.afterReturn]

/-! ## The run of the lexer -/

theorem workLeft_lt_of_step (h : Step resolve l es l') : l'.workLeft < l.workLeft := by
  cases h with
  | reexamine hunread hmove => exact workLeft_reexamine l resolve hunread hmove
  | take hunread _ => exact workLeft_take l _ hunread

/-- Reading comes to an end. -/
theorem exists_reads (resolve : Resolver) (l : Lexer) :
    ∃ es l' error?, Reads resolve l es l' error? := by
  induction hwork : l.workLeft using Nat.strong_induction_on generalizing l with
  | h n ih =>
      have onward : ∀ {es₁ l₁}, Step resolve l es₁ l₁ →
          ∃ es l' error?, Reads resolve l es l' error? := by
        intro es₁ l₁ hstep
        obtain ⟨es₂, l', e, m, hsteps, hhalts⟩ :=
          ih l₁.workLeft (hwork ▸ workLeft_lt_of_step hstep) l₁ rfl
        exact ⟨es₁ ++ es₂, l', e, m, .head hstep hsteps, hhalts⟩
      cases hunread : l.buffer.unread with
      | nil => exact ⟨[], l, none, l, .refl l, .exhausted hunread⟩
      | cons c rest =>
          cases hmove : l.state.move resolve l.position c rest with
          | wait => exact ⟨[], l, none, l, .refl l, .waiting hunread hmove⟩
          | reject cause => exact ⟨[], _, _, l, .refl l, .rejected hunread hmove⟩
          | reexamine next sent => exact onward (.reexamine hunread hmove)
          | take t => exact onward (.take hunread hmove)

theorem runFrom_nil (hunread : l.buffer.unread = []) (before : List Event) (log : List LogEntry) :
    runFrom resolve l before log = ⟨l, before.reverse, log.reverse, none⟩ := by
  rw [runFrom]
  split
  · rfl
  · simp_all

/-- The run at an unread character, by its move. -/
theorem runFrom_cons {c : Char} {rest : List Char} (hunread : l.buffer.unread = c :: rest)
    (before : List Event) (log : List LogEntry) :
    runFrom resolve l before log =
      match l.state.move resolve l.position c rest with
      | .wait => ⟨l, before.reverse, (.waiting l.state :: log).reverse, none⟩
      | .reject cause =>
          ⟨{ l with buffer := l.buffer.advance 1 }, before.reverse, log.reverse,
            some (syntaxError { l with buffer := l.buffer.advance 1 } cause)⟩
      | .reexamine next sent =>
          runFrom resolve { l with state := next } (sent.reverse ++ before)
            ((transition l.state next).reverse ++ log)
      | .take t =>
          runFrom resolve (l.take t) (t.events.reverse ++ before)
            ((takeLog l (l.take t) t).reverse ++ log) := by
  rw [runFrom]
  split
  · simp_all
  · rename_i d ds hcons
    obtain ⟨rfl, rfl⟩ := List.cons.inj (hunread.symm.trans hcons)
    split <;> simp_all

/-- What the run does at a lexer that halts. -/
theorem runFrom_of_halts {error? : Option SyntaxError} (h : Halts resolve l l' error?)
    (before : List Event) (log : List LogEntry) :
    ∃ log', runFrom resolve l before log = ⟨l', before.reverse, log', error?⟩ := by
  cases h with
  | exhausted hunread =>
      rw [runFrom_nil hunread]
      exact ⟨_, rfl⟩
  | waiting hunread hmove =>
      rw [runFrom_cons hunread, hmove]
      exact ⟨_, rfl⟩
  | rejected hunread hmove =>
      rw [runFrom_cons hunread, hmove]
      exact ⟨_, rfl⟩

/-- What the run does at a lexer that steps. -/
theorem runFrom_of_step (h : Step resolve l es l') (before : List Event) (log : List LogEntry) :
    ∃ log', runFrom resolve l before log = runFrom resolve l' (es.reverse ++ before) log' := by
  cases h with
  | reexamine hunread hmove =>
      rw [runFrom_cons hunread, hmove]
      exact ⟨_, rfl⟩
  | take hunread hmove =>
      rw [runFrom_cons hunread, hmove]
      exact ⟨_, rfl⟩

theorem runFrom_of_reads {error? : Option SyntaxError} (h : Reads resolve l es l' error?)
    (before : List Event) (log : List LogEntry) :
    ∃ log', runFrom resolve l before log = ⟨l', before.reverse ++ es, log', error?⟩ := by
  obtain ⟨m, hsteps, hhalts⟩ := h
  induction hsteps generalizing before log with
  | refl => simpa using runFrom_of_halts hhalts before log
  | @head _ _ _ es _ first _ ih =>
      obtain ⟨log₁, hrun⟩ := runFrom_of_step first before log
      obtain ⟨log₂, hlater⟩ := ih (es.reverse ++ before) log₁ hhalts
      refine ⟨log₂, ?_⟩
      rw [hrun, hlater]
      simp

theorem run_of_reads {error? : Option SyntaxError} (h : Reads resolve l es l' error?) :
    (run resolve l).events = es ∧ (run resolve l).lexer = l' ∧
      (run resolve l).error? = error? := by
  obtain ⟨log', hrun⟩ := runFrom_of_reads h [] []
  simp [run, hrun]

/-- The run is the only way to read. -/
theorem reads_iff {error? : Option SyntaxError} :
    Reads resolve l es l' error? ↔
      (run resolve l).events = es ∧ (run resolve l).lexer = l' ∧
        (run resolve l).error? = error? := by
  constructor
  · exact run_of_reads
  · rintro ⟨rfl, rfl, rfl⟩
    obtain ⟨es, l', e, h⟩ := exists_reads resolve l
    obtain ⟨hes, hl', he⟩ := run_of_reads h
    rwa [hes, hl', he]

theorem reads_run (resolve : Resolver) (l : Lexer) :
    Reads resolve l (run resolve l).events (run resolve l).lexer (run resolve l).error? :=
  reads_iff.mpr ⟨rfl, rfl, rfl⟩

/-- What comes before a stretch of reading comes before its events. -/
theorem Steps.reads {error? : Option SyntaxError} (h : Steps resolve l es l')
    (h' : Reads resolve l' es' l'' error?) : Reads resolve l (es ++ es') l'' error? := by
  obtain ⟨m, hsteps, hhalts⟩ := h'
  exact ⟨m, h.trans hsteps, hhalts⟩

end TemplateMarkup.Lexer
