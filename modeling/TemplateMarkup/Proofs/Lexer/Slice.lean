import TemplateMarkup.Proofs.Assembler.Contents
import TemplateMarkup.Proofs.Lexer.Stops

/-!
# Reading a slice

What a lexer does with a part of a text it does with the part alone, wherever that may stand: the
positions differ, and nothing else (`Steps.slice`). Text that follows is looked at in two cases.
The end of a reference lies inside the part or is not found at all, and a character that waits for
the one after it is, at the end of the part, a brace that the end of the input makes a text.
-/

namespace TemplateMarkup

/-! ## Positions left out -/

/-- The move without its remark and its positions. -/
def Move.unplaced : Move → Move
  | .reexamine next es => .reexamine next (es.map Event.unplaced)
  | .take t => .take { t with events := t.events.map Event.unplaced, note := none }
  | m => m

theorem Move.unplaced_mute (m : Move) : m.mute.unplaced = m.unplaced := by
  cases m <;> rfl

/-- What the end of the input adds where nothing is unread. -/
def State.ending : State → List Event
  | .data => [.finishChars .start]
  | _ => []

variable {resolve : Resolver} {s next : State} {c : Char}
  {rest : List Char} {es es' : List Event}

/-- A move does not depend on the position, which it only reports. -/
theorem State.unplaced_move (here there : Position) :
    (s.move resolve here c rest).unplaced = (s.move resolve there c rest).unplaced := by
  cases s <;> simp [State.move] <;> (repeat' split) <;> rfl

/-- A state that peeks takes the character that it peeks at too, or it stays in what it was in: a
brace is text, and a dash is dropped. -/
theorem State.move_of_peeks (h : s.peeks c = true) (resolve : Resolver) (here : Position)
    (d : Char) (rest : List Char) :
    (∃ t, s.move resolve here c (d :: rest) = .take t ∧ t.extra = 1) ∨
      (s = .beforeData ∧ c = '\x7b' ∧ s.move resolve here c (d :: rest) =
        .take { next := .data, events := [.beginChars, .appendChars "\x7b"] }) ∨
      ∃ note, s.move resolve here c (d :: rest) =
        .take { next := .markupDeclaration, note } := by
  cases s with
  | beforeData =>
      obtain rfl : c = '\x7b' := by simpa [State.peeks] using h
      by_cases hd : d = '\x7b' <;> simp [State.move, hd]
  | possibleExpressionOpen => by_cases hd : d = '\x7b' <;> simp [State.move, hd]
  | markupDeclaration =>
      obtain rfl : c = '-' := by simpa [State.peeks] using h
      by_cases hd : d = '-' <;> simp [State.move, hd]
  | _ => cases h

theorem Move.reexamine_of_unplaced {m : Move} (h : m.unplaced = (Move.reexamine next es).unplaced) :
    ∃ es', m = .reexamine next es' ∧ Alike es' es := by
  cases m with
  | reexamine next' es' =>
      obtain ⟨rfl, hes⟩ := Move.reexamine.inj h
      exact ⟨es', rfl, hes⟩
  | _ => cases h

theorem Move.reject_of_unplaced {m : Move} {cause : SyntaxError.Cause}
    (h : m.unplaced = (Move.reject cause).unplaced) : m = .reject cause := by
  cases m with
  | reject cause' => exact h
  | _ => cases h

theorem Move.take_of_unplaced {m : Move} {t : Take} (h : m.unplaced = (Move.take t).unplaced) :
    ∃ t', m = .take t' ∧ t'.next = t.next ∧ t'.extra = t.extra ∧ Alike t'.events t.events := by
  cases m with
  | take t' =>
      obtain ⟨hnext, hes, hextra, -⟩ := Take.mk.inj (Move.take.inj h)
      exact ⟨t', rfl, hnext, hextra, hes⟩
  | _ => cases h

/-- What completes a text run before an opening character opens the next token alike. -/
theorem State.move_of_opens {here : Position} {t : Take}
    (h : s.move resolve here c rest = .take t) (hes : t.events = [.finishChars here])
    (hs : s = .data ∧ c = '<' ∨ s = .possibleExpressionOpen ∧ c = '\x7b') :
    State.beforeData.move resolve here c rest = .take { t with events := [] } := by
  rcases hs with ⟨rfl, rfl⟩ | ⟨rfl, rfl⟩
  · simp [State.move] at h ⊢
    simp [← h]
  · simp [State.move] at h ⊢
    split at h
    · cases h
    · split at h
      · simp_all
        simp [← h]
      · simp [← Move.take.inj h] at hes

namespace Lexer

variable {l l' l₁ m : Lexer} {x w : List Char}

/-- What a step does, by its move. -/
theorem Step.move (h : Step resolve l es l') (hunread : l.buffer.unread = c :: rest) :
    (∃ next, l.state.move resolve l.position c rest = .reexamine next es ∧
        l' = { l with state := next }) ∨
      ∃ t, l.state.move resolve l.position c rest = .take t ∧ es = t.events ∧ l' = l.take t := by
  cases h with
  | @reexamine d ds next es hunread' hmove =>
      obtain ⟨rfl, rfl⟩ := List.cons.inj (hunread.symm.trans hunread')
      exact Or.inl ⟨next, hmove, rfl⟩
  | @take d ds t hunread' hmove =>
      obtain ⟨rfl, rfl⟩ := List.cons.inj (hunread.symm.trans hunread')
      exact Or.inr ⟨t, hmove, rfl, rfl⟩

/-- A step that completes a text run is one that begins the next token, but for its event. -/
theorem Step.begins (h : Step resolve l [.finishChars l.position] l')
    (hs : l.state = .data ∧ c = '<' ∨ l.state = .possibleExpressionOpen ∧ c = '\x7b')
    (hunread : l.buffer.unread = c :: rest) :
    Step resolve { l with state := .beforeData } [] l' := by
  rcases h.move hunread with ⟨next, hmove, -⟩ | ⟨t, hmove, hevents, rfl⟩
  · cases State.effect_of_reexamine hmove with
    | inside hes => exact absurd (hes _ (List.mem_singleton_self _)) (by simp [Event.stop?])
  · have hstep := Step.take (l := { l with state := .beforeData }) hunread
      (State.move_of_opens hmove hevents.symm hs)
    have htake : ({ l with state := .beforeData } : Lexer).take { t with events := [] } =
        l.take t := by
      cases hmark : t.mark with
      | none => simp [Lexer.take, hmark]
      | some mark => cases mark <;> simp [Lexer.take, hmark, Lexer.mark, position]
    rwa [htake] at hstep

/-! ## Cutting off the text that follows -/

/-- The lexer `m` has the unread text of `l` up to `x`, and stands somewhere else maybe. -/
structure Cut (x : List Char) (l m : Lexer) : Prop where
  state : m.state = l.state
  unread : l.buffer.unread = m.buffer.unread ++ x

/-- Before the end of a slice the move is that of the slice alone, if it takes no more than that. A
character that waits for the one after it must not be the last. -/
theorem Cut.move {v : List Char} (h : Cut x l m) (hm : m.buffer.unread = c :: v)
    (hpeek : m.buffer.unread = [c] → l.state.peeks c = true → x = [])
    (hextra : ∀ t, l.state.move resolve l.position c (v ++ x) = .take t → t.extra ≤ v.length) :
    (m.state.move resolve m.position c v).unplaced =
      (l.state.move resolve l.position c (v ++ x)).unplaced := by
  have hmute : (l.state.move resolve l.position c v).mute =
      (l.state.move resolve l.position c (v ++ x)).mute := by
    apply State.move_congr
    · intro hpeeks
      cases v with
      | nil =>
          rw [hpeek hm hpeeks]
          rfl
      | cons d ds => rfl
    · rintro rfl htext
      obtain ⟨append, hs⟩ := Option.ne_none_iff_exists'.mp htext
      apply Reference.known?_of_append
      intro length text hknown
      have hmove : (l.state.move resolve l.position '&' (v ++ x)).mute =
          (Move.take { next := l.state, events := [append text], extra := length + 1 }).mute := by
        rw [State.move_ampersand l.position hs, Move.mute_reference, hknown]
        rfl
      obtain ⟨note, htake⟩ := Move.eq_of_mute_eq_take hmove
      exact hextra _ htake
  rw [h.state, State.unplaced_move m.position l.position, ← Move.unplaced_mute, hmute,
    Move.unplaced_mute]

/-- A step inside a slice is made in the slice alone. -/
theorem Step.cut (h : Step resolve l es l') (hcut : Cut x l m)
    (hwithin : l'.buffer.unread = w ++ x) (hne : m.buffer.unread ≠ [])
    (hpeek : ∀ c, m.buffer.unread = [c] → l.state.peeks c = true → x = []) :
    ∃ es' m', Step resolve m es' m' ∧ Cut x l' m' ∧ Alike es' es := by
  obtain ⟨c, v, hm⟩ := List.exists_cons_of_ne_nil hne
  have hl : l.buffer.unread = c :: (v ++ x) := by rw [hcut.unread, hm, List.cons_append]
  rcases h.move hl with ⟨next, hmove, rfl⟩ | ⟨t, hmove, rfl, rfl⟩
  · have hsame : (m.state.move resolve m.position c v).unplaced =
        (Move.reexamine next es).unplaced := by
      rw [← hmove]
      apply hcut.move hm (hpeek c)
      intro t ht
      rw [hmove] at ht
      cases ht
    obtain ⟨es', hmove', hes⟩ := Move.reexamine_of_unplaced hsame
    exact ⟨es', _, .reexamine hm hmove', ⟨rfl, hcut.unread⟩, hes⟩
  · have hextra : t.extra ≤ v.length := by
      have hdrop : (v ++ x).drop t.extra = w ++ x := by
        rw [← hwithin, buffer_take, Buffer.unread_advance, hl, List.drop_succ_cons]
      have hbound := State.extra_le_of_move hmove
      have hlength := congrArg List.length hdrop
      simp only [List.length_drop, List.length_append] at hlength hbound
      omega
    have hsame : (m.state.move resolve m.position c v).unplaced = (Move.take t).unplaced := by
      rw [← hmove]
      apply hcut.move hm (hpeek c)
      intro t' ht'
      rw [hmove] at ht'
      obtain rfl := Move.take.inj ht'
      exact hextra
    obtain ⟨t', hmove', hnext, hextra', hes⟩ := Move.take_of_unplaced hsame
    refine ⟨t'.events, m.take t', .take hm hmove', ⟨hnext, ?_⟩, hes⟩
    rw [buffer_take, buffer_take, Buffer.unread_advance, Buffer.unread_advance, hl, hm, hextra',
      List.drop_succ_cons, List.drop_succ_cons, List.drop_append_of_le_length hextra]

/-! ## Reading to the end -/

/-- What the lexer reports when it reads to the end of its text, which is the end of the input. -/
def Finishes (resolve : Resolver) (l : Lexer) (es : List Event) : Prop :=
  ∃ es₁ m, Reads resolve l es₁ m none ∧ es = es₁ ++ m.flush.events

theorem Steps.finishes (h : Steps resolve l es l') (h' : Finishes resolve l' es') :
    Finishes resolve l (es ++ es') := by
  obtain ⟨es₁, m, hreads, rfl⟩ := h'
  refine ⟨es ++ es₁, m, h.reads hreads, ?_⟩
  rw [List.append_assoc]

theorem Step.finishes (h : Step resolve l es l') (h' : Finishes resolve l' es') :
    Finishes resolve l (es ++ es') :=
  (Steps.single h).finishes h'

theorem Halts.finishes (h : Halts resolve l l none) : Finishes resolve l l.flush.events :=
  ⟨[], l, ⟨l, .refl l, h⟩, rfl⟩

theorem finishes_of_exhausted (h : m.buffer.unread = []) :
    ∃ fs, Finishes resolve m fs ∧ Alike fs m.state.ending := by
  refine ⟨m.flush.events, Halts.finishes (.exhausted h), ?_⟩
  cases hs : m.state <;> simp [flush, settle, h, hs, State.ending, Alike, Event.unplaced]

/-- The lexer stands between two tokens, or where a text run ends or may end. -/
def AtBorder (l : Lexer) : Prop :=
  l.state = .beforeData ∨
    l.state = .data ∧ ∃ d rest, l.buffer.unread = d :: rest ∧ (d = '<' ∨ d = '\x7b')

/-- No step leads to a border that takes no character. -/
theorem Steps.eq_of_unread (h : Steps resolve l es l₁)
    (hunread : l.buffer.unread = l₁.buffer.unread) (hborder : l₁.AtBorder) : l = l₁ ∧ es = [] := by
  rcases h.last with hrefl | ⟨p, es₁, es₂, hsteps, hstep, rfl⟩
  · exact hrefl
  · exfalso
    obtain ⟨w, hw⟩ := hsteps.over
    obtain ⟨c, rest, n, hp, hn, hbuffer, heffect⟩ := hstep.effect
    have hl₁ : l₁.buffer.unread = p.buffer.unread.drop n := by rw [hbuffer, Buffer.unread_advance]
    obtain rfl : n = 0 := by
      have hlength := congrArg List.length (hw.unread.symm.trans (hunread.trans hl₁))
      simp only [List.length_append, List.length_drop] at hlength
      omega
    generalize hnext : l₁.state = next at heffect
    cases heffect with
    | inside hes hbetween hdata hbrace =>
        rcases hborder with hs | ⟨hs, d, ds, hunread', hd⟩
        · exact hbetween (hnext.symm.trans hs)
        · rcases hdata (hnext.symm.trans hs) with hpos | ⟨-, hlt, hbr⟩
          · exact absurd hpos (Nat.lt_irrefl 0)
          · rw [hl₁, hp, List.drop_zero] at hunread'
            obtain ⟨rfl, -⟩ := List.cons.inj hunread'
            rcases hd with rfl | rfl
            · exact hlt rfl
            · exact hbr rfl

/-- Before the character that completes a text run the lexer is in the run, at a border. -/
theorem Steps.border_of_opens (h : Steps resolve l es l₁) (hl : l.state = .beforeData)
    (hs : l₁.state = .data ∧ c = '<' ∨ l₁.state = .possibleExpressionOpen)
    (hunread : l₁.buffer.unread = c :: rest) :
    (l₁.state = .data ∧ c = '<' ∨ l₁.state = .possibleExpressionOpen ∧ c = '\x7b') ∧
      ∃ p, p.state = .data ∧ p.buffer = l₁.buffer ∧ p.AtBorder ∧ Steps resolve l es p := by
  rcases hs with ⟨hs, rfl⟩ | hs
  · exact ⟨Or.inl ⟨hs, rfl⟩, l₁, hs, rfl, Or.inr ⟨hs, _, rest, hunread, Or.inl rfl⟩, h⟩
  · -- the step before has looked at the brace and taken nothing
    rcases h.last with ⟨rfl, -⟩ | ⟨p, es₁, es₂, hsteps, hstep, rfl⟩
    · rw [hl] at hs
      cases hs
    · obtain ⟨d, ds, n, hp, -, hbuffer, heffect⟩ := hstep.effect
      rw [hs] at heffect
      cases heffect with
      | inside hes hbetween hdata hbrace =>
          obtain ⟨hpdata, rfl, rfl, rfl⟩ := hbrace rfl
          have hsame : p.buffer = l₁.buffer := hbuffer.symm
          obtain ⟨rfl, -⟩ := List.cons.inj (hp.symm.trans (hsame ▸ hunread))
          refine ⟨Or.inr ⟨hs, rfl⟩, p, hpdata, hsame, Or.inr ⟨hpdata, _, ds, hp, Or.inr rfl⟩, ?_⟩
          rwa [List.append_nil]
      | opens _ hnext => rcases hnext with hnext | hnext <;> cases hnext

/-- The slice of a brace that no brace follows. Alone it waits, and the end of the input makes it a
text. -/
theorem Step.slice_brace (first : Step resolve l es l') (later : Steps resolve l' es' l₁)
    (hborder : l₁.AtBorder) (hcut : Cut l₁.buffer.unread l m) (hm : m.buffer.unread = [c])
    (hpeek : l.state.peeks c = true) (hmore : l₁.buffer.unread ≠ []) :
    ∃ fs, Finishes resolve m fs ∧ Alike fs (es ++ es' ++ l₁.state.ending) := by
  obtain ⟨d, ds, hx⟩ := List.exists_cons_of_ne_nil hmore
  have hl : l.buffer.unread = c :: d :: ds := by
    rw [hcut.unread, hm, hx]
    rfl
  obtain ⟨w, hw⟩ := later.over
  have hlength := congrArg List.length hw.unread
  rw [hx, List.length_append] at hlength
  have hpeeked := State.move_of_peeks hpeek resolve l.position d ds
  rcases first.move hl with ⟨next, hmove, -⟩ | ⟨t, hmove, rfl, rfl⟩
  · rw [hmove] at hpeeked
    rcases hpeeked with ⟨t, ht, -⟩ | ⟨-, -, ht⟩ | ⟨note, ht⟩ <;> cases ht
  · rw [hmove] at hpeeked
    rcases hpeeked with ⟨t', ht, hextra⟩ | ⟨hs, rfl, ht⟩ | ⟨note, ht⟩
    · -- two characters are too many
      obtain rfl := Move.take.inj ht
      simp [hl, hextra] at hlength
      omega
    · obtain rfl := Move.take.inj ht
      obtain ⟨rfl, rfl⟩ := later.eq_of_unread (by simp [hl, hx]) hborder
      have hrest : Halts resolve m m none :=
        .waiting hm (State.move_eq_wait_iff.mpr ⟨by rw [hcut.state, hpeek], rfl⟩)
      refine ⟨m.flush.events, hrest.finishes, ?_⟩
      have hms : m.state = .beforeData := hcut.state.trans hs
      simp [flush, settle, hm, hms, State.ending, Alike, Event.unplaced]
    · obtain rfl := Move.take.inj ht
      obtain ⟨rfl, rfl⟩ := later.eq_of_unread (by simp [hl, hx]) hborder
      rcases hborder with hs | ⟨hs, -⟩ <;> cases hs

/-- **A slice alone.** A lexer that reads up to a border reports the same when the text ends there,
and the end of the input completes the text run if there is one. -/
theorem Steps.slice (h : Steps resolve l es l₁) (hborder : l₁.AtBorder)
    (hcut : Cut l₁.buffer.unread l m) :
    ∃ fs, Finishes resolve m fs ∧ Alike fs (es ++ l₁.state.ending) := by
  induction h generalizing m with
  | refl l =>
      have hm : m.buffer.unread = [] := by simpa using hcut.unread
      rw [← hcut.state]
      exact finishes_of_exhausted hm
  | @head l l' l₁ es es' first later ih =>
      by_cases hm : m.buffer.unread = []
      · have hunread : l.buffer.unread = l₁.buffer.unread := by
          rw [hcut.unread, hm, List.nil_append]
        obtain ⟨rfl, hes⟩ := (Steps.head first later).eq_of_unread hunread hborder
        rw [hes, ← hcut.state]
        exact finishes_of_exhausted hm
      · by_cases hbrace : ∀ c, m.buffer.unread = [c] → l.state.peeks c = true →
            l₁.buffer.unread = []
        · obtain ⟨w, hw⟩ := later.over
          obtain ⟨es₁, m', hstep, hcut', hes⟩ := first.cut hcut hw.unread hm hbrace
          obtain ⟨fs, hfinishes, hfs⟩ := ih hborder hcut'
          refine ⟨es₁ ++ fs, hstep.finishes hfinishes, ?_⟩
          rw [List.append_assoc]
          exact hes.append hfs
        · push Not at hbrace
          obtain ⟨c, hc, hpeek, hmore⟩ := hbrace
          exact first.slice_brace later hborder hcut hc hpeek hmore

theorem Cut.flush (h : Cut [] l m) : Alike m.flush.events l.flush.events := by
  have hunread : l.buffer.unread = m.buffer.unread := by simpa using h.unread
  cases hm : m.buffer.unread <;> cases hs : l.state <;>
    simp [Lexer.flush, settle, hunread, hm, h.state, hs, Alike, Event.unplaced]

theorem Cut.halts (h : Cut [] l m) (hrest : Halts resolve l l none) : Halts resolve m m none := by
  have hunread : l.buffer.unread = m.buffer.unread := by simpa using h.unread
  rcases hrest.unread with hnil | ⟨c, hc, hpeek⟩
  · exact .exhausted (hunread.symm.trans hnil)
  · exact .waiting (hunread.symm.trans hc)
      (State.move_eq_wait_iff.mpr ⟨by rw [h.state, hpeek], rfl⟩)

/-- What is rejected is rejected elsewhere too, for the same cause. -/
theorem Cut.rejects {e : SyntaxError} (h : Cut [] l m) (hrest : Halts resolve l l' (some e)) :
    ∃ m' e', Halts resolve m m' (some e') ∧ e'.cause = e.cause := by
  cases hrest with
  | @rejected c rest cause hunread hmove =>
      have hm : m.buffer.unread = c :: rest := by
        rw [← hunread, h.unread, List.append_nil]
      have hsame : (m.state.move resolve m.position c rest).unplaced = (Move.reject cause).unplaced := by
        rw [h.state, State.unplaced_move m.position l.position, hmove]
      have hmove' : m.state.move resolve m.position c rest = .reject cause :=
        Move.reject_of_unplaced hsame
      exact ⟨_, _, .rejected hm hmove', rfl⟩

/-- All the text that is left is read elsewhere as it is here. -/
theorem Steps.elsewhere (h : Steps resolve l es l₁) (hcut : Cut [] l m) :
    ∃ es' m₁, Steps resolve m es' m₁ ∧ Cut [] l₁ m₁ ∧ Alike es' es := by
  induction h generalizing m with
  | refl l => exact ⟨[], m, .refl m, hcut, rfl⟩
  | @head l l' l₁ es es' first later ih =>
      have hne : m.buffer.unread ≠ [] := by
        obtain ⟨c, rest, _, hunread, -⟩ := first.effect
        rw [hcut.unread, List.append_nil] at hunread
        simp [hunread]
      obtain ⟨es₁, m', hstep, hcut', hes⟩ :=
        first.cut hcut (List.append_nil _).symm hne fun _ _ _ => rfl
      obtain ⟨es₂, m₁, hsteps, hcut₁, hes'⟩ := ih hcut'
      exact ⟨es₁ ++ es₂, m₁, .head hstep hsteps, hcut₁, hes.append hes'⟩

/-- All the text that is left, alone. -/
theorem Steps.slice_rest (h : Steps resolve l es l₁) (hrest : Halts resolve l₁ l₁ none)
    (hcut : Cut [] l m) :
    ∃ fs, Finishes resolve m fs ∧ Alike fs (es ++ l₁.flush.events) := by
  obtain ⟨es', m₁, hsteps, hcut₁, hes⟩ := h.elsewhere hcut
  have hend : Finishes resolve m₁ m₁.flush.events := (hcut₁.halts hrest).finishes
  exact ⟨es' ++ m₁.flush.events, hsteps.finishes hend, hes.append hcut₁.flush⟩

end Lexer

end TemplateMarkup
