import TemplateMarkup.Proofs.Lexer.Expressions
import TemplateMarkup.Proofs.Lexer.Slice

/-!
# What follows a rejected character

A rejected character is rejected whatever follows it (`Reads.rejected`). More text could only change
what an `&` before the expression stands for, and only by bringing the end of a known reference.
Such a reference would have the opening braces of the expression in its name.
-/

namespace TemplateMarkup

/-- A resolver that knows no name with an opening brace in it. -/
def Resolver.BraceFree (resolve : Resolver) : Prop :=
  ∀ name text, resolve name = some text → '\x7b' ∉ name.toList

theorem braceFree_standard : Resolver.BraceFree Reference.standard := by
  intro name text h hmem
  rcases Reference.isNameChar_of_standard h _ hmem with hc | hc <;> cases hc

variable {resolve : Resolver} {c d : Char} {rest : List Char} {es : List Event}

/-- No reference reaches over a brace, so what follows the brace has no say. -/
theorem Reference.known?_append_of_brace (hresolve : resolve.BraceFree) {ahead : List Char}
    (hbrace : '\x7b' ∈ ahead) (more : List Char) :
    (lookup resolve (ahead ++ more)).known? = (lookup resolve ahead).known? := by
  apply Eq.symm
  apply known?_of_append
  intro length text hknown
  obtain ⟨name, tail, heq, -, rfl, hname⟩ := known?_lookup_eq_some hknown
  by_contra hlong
  have hprefix : ahead <+: name :=
    List.prefix_of_prefix_length_le (List.prefix_append ahead more)
      (heq ▸ List.prefix_append name (';' :: tail)) (Nat.le_of_not_lt hlong)
  apply hresolve _ _ hname
  rw [String.toList_ofList]
  exact hprefix.subset hbrace

namespace Lexer

variable {l l' m : Lexer} {w x y : List Char} {r r' : Bool}

theorem extend_extend (l : Lexer) (w x : List Char) (r r' : Bool) :
    (l.extend w r).extend x r' = l.extend (w ++ x) r' := by
  simp [extend, Buffer.push]

/-- Where the state peeks, the character at the cursor is taken. -/
theorem Step.unread_of_peeks (h : Step resolve l es l') (hunread : l.buffer.unread = c :: rest)
    (hpeek : l.state.peeks c = true) : ∃ n, l'.buffer.unread = rest.drop n := by
  rcases h.move hunread with ⟨next, hmove, -⟩ | ⟨t, -, -, rfl⟩
  · exfalso
    cases rest with
    | nil =>
        rw [State.move_eq_wait_iff.mpr ⟨hpeek, rfl⟩] at hmove
        cases hmove
    | cons d ds =>
        have hpeeked := State.move_of_peeks hpeek resolve l.position d ds
        rw [hmove] at hpeeked
        rcases hpeeked with ⟨t, ht, -⟩ | ⟨-, -, ht⟩ | ⟨note, ht⟩ <;> cases ht
  · exact ⟨t.extra, by simp [hunread]⟩

/-! ## Other text behind -/

/-- A step that leaves some of the text before `x` unread is made with any `y` in the place of `x`,
if what an `&` stands for is decided before that. -/
theorem Step.exchange (h : Step resolve (l.extend x r) es m) (hm : m.buffer.unread = w ++ x)
    (hw : w ≠ []) (hresolve : resolve.BraceFree)
    (hbrace : l.state.textEvent? ≠ none → '\x7b' ∈ l.buffer.unread) (y : List Char) (r' : Bool) :
    ∃ l' : Lexer, l'.buffer.unread = w ∧ m = l'.extend x r ∧
      Step resolve (l.extend y r') es (l'.extend y r') := by
  obtain ⟨v, hover⟩ := h.over
  have hsplit : l.buffer.unread = v ++ w := by
    have hunread := hover.unread
    rw [unread_extend, hm, ← List.append_assoc] at hunread
    exact List.append_cancel_right hunread
  obtain ⟨c, rest, hl⟩ : ∃ c rest, l.buffer.unread = c :: rest :=
    List.exists_cons_of_ne_nil (by simp [hsplit, hw])
  have hx : (l.extend x r).buffer.unread = c :: (rest ++ x) := by simp [hl]
  have hy : (l.extend y r').buffer.unread = c :: (rest ++ y) := by simp [hl]
  have hsame : (l.state.move resolve l.position c (rest ++ y)).mute =
      (l.state.move resolve l.position c (rest ++ x)).mute := by
    apply State.move_congr
    · intro hpeek
      cases rest with
      | cons d ds => rfl
      | nil =>
          -- the last character before `x` would be taken
          exfalso
          obtain ⟨n, hn⟩ := h.unread_of_peeks hx hpeek
          have hlength := congrArg List.length (hm.symm.trans hn)
          have hpos := List.length_pos_iff.mpr hw
          simp only [List.nil_append, List.length_append, List.length_drop] at hlength
          omega
    · rintro rfl htext
      have hmem : '\x7b' ∈ rest := by simpa [hl] using hbrace htext
      rw [Reference.known?_append_of_brace hresolve hmem,
        Reference.known?_append_of_brace hresolve hmem]
  rcases h.move hx with ⟨next, hmove, rfl⟩ | ⟨t, hmove, rfl, rfl⟩
  · have hunread : l.buffer.unread = w := List.append_cancel_right hm
    have hmove' : l.state.move resolve l.position c (rest ++ y) = .reexamine next es := by
      apply Move.eq_of_mute_eq_reexamine
      rw [hsame]
      exact congrArg Move.mute hmove
    exact ⟨{ l with state := next }, hunread, rfl, .reexamine hy hmove'⟩
  · have hextra : t.extra + 1 < l.buffer.unread.length := by
      have hlength := congrArg List.length hm
      have hpos := List.length_pos_iff.mpr hw
      simp only [buffer_take, Buffer.unread_advance, unread_extend, List.length_drop,
        List.length_append] at hlength
      omega
    have hunread : (l.take t).buffer.unread = w := by
      rw [buffer_take, Buffer.unread_advance, unread_extend,
        List.drop_append_of_le_length hextra.le] at hm
      rw [buffer_take, Buffer.unread_advance]
      exact List.append_cancel_right hm
    obtain ⟨note, hmove'⟩ :
        ∃ note, l.state.move resolve l.position c (rest ++ y) = .take { t with note } := by
      apply Move.eq_of_mute_eq_take
      rw [hsame]
      exact congrArg Move.mute hmove
    refine ⟨l.take t, hunread, take_extend (Nat.lt_of_succ_lt hextra), ?_⟩
    have hstep := Step.take hy hmove'
    rw [← take_extend (Nat.lt_of_succ_lt hextra)]
    exact hstep

/-- Steps that lead to the character before `x`, inside an expression, are made with any `y` in the
place of `x`. -/
theorem Steps.exchange (h : Steps resolve (l.extend x r) es m) (hm : m.buffer.unread = d :: x)
    (hexpr : m.state.inExpression = true) (honbrace : (l.extend x r).OnBrace)
    (hresolve : resolve.BraceFree) (y : List Char) (r' : Bool) :
    ∃ m' : Lexer, m'.buffer.unread = [d] ∧ m = m'.extend x r ∧
      Steps resolve (l.extend y r') es (m'.extend y r') := by
  generalize hl : l.extend x r = k at h honbrace
  induction h generalizing l with
  | refl k =>
      subst hl
      have hunread : l.buffer.unread ++ x = [d] ++ x := hm
      exact ⟨l, List.append_cancel_right hunread, rfl, .refl _⟩
  | @head k k₁ m es es' first later ih =>
      subst hl
      obtain ⟨v, hover⟩ := later.over
      have hk₁ : k₁.buffer.unread = (v ++ [d]) ++ x := by
        rw [hover.unread, hm, List.append_assoc, List.singleton_append]
      have hbrace : l.state.textEvent? ≠ none → '\x7b' ∈ l.buffer.unread := by
        intro htext
        obtain ⟨append, hs⟩ := Option.ne_none_iff_exists'.mp htext
        have houtside := State.inExpression_of_textEvent? hs
        rcases (Steps.head first later).expression honbrace hexpr with ⟨hinside, -⟩ | ⟨v, w, hw, -⟩
        · rw [state_extend, houtside] at hinside
          cases hinside
        · have hunread : l.buffer.unread ++ x = (v ++ '\x7b' :: '\x7b' :: w ++ [d]) ++ x := by
            have hunread := hw.unread
            rw [hm] at hunread
            simpa using hunread
          rw [List.append_cancel_right hunread]
          simp
      obtain ⟨l₁, -, rfl, hstep⟩ := first.exchange hk₁ (by simp) hresolve hbrace y r'
      obtain ⟨m', hm', rfl, hsteps⟩ := ih hm hexpr rfl first.onBrace
      exact ⟨m', hm', rfl, .head hstep hsteps⟩

theorem Halts.exchange {e : SyntaxError} (h : Halts resolve (m.extend x r) l' (some e))
    (hm : m.buffer.unread = [d]) (y : List Char) (r' : Bool) :
    ∃ l'', Halts resolve (m.extend y r') l'' (some e) := by
  cases h with
  | @rejected c rest cause hunread hmove =>
      have hy : (m.extend y r').buffer.unread = d :: y := by simp [hm]
      obtain ⟨rfl, rfl⟩ : d = c ∧ x = rest := by simpa [hm] using hunread
      obtain ⟨hexpr, -⟩ := State.inExpression_of_reject hmove
      rw [State.move_of_inExpression hexpr resolve resolve _ d x y] at hmove
      have hlength : 1 ≤ m.buffer.unread.length := by simp [hm]
      have hhalts := Halts.rejected hy hmove
      rw [advance_extend hlength] at hhalts ⊢
      exact ⟨_, hhalts⟩

/-! ## Documents -/

/-- A text that is rejected is so at a character `c` inside an expression. The text up to that
character is rejected alike, whatever comes after it. -/
theorem Reads.rejected {text : List Char} {e : SyntaxError} (hresolve : resolve.BraceFree)
    (h : Reads resolve (extend {} text r) es l' (some e)) :
    ∃ v w c x, text = v ++ '\x7b' :: '\x7b' :: w ++ [c] ++ x ∧
      e.expressionStart = Position.start.after v ∧
      e.position = Position.start.after (v ++ '\x7b' :: '\x7b' :: w ++ [c]) ∧
      e.cause.found = c ∧
      ∀ y r', ∃ es l'',
        Reads resolve (extend {} (v ++ '\x7b' :: '\x7b' :: w ++ [c] ++ y) r') es l'' (some e) := by
  obtain ⟨m, hsteps, hhalts⟩ := h
  cases hhalts with
  | @rejected c x cause hunread hmove =>
      obtain ⟨hexpr, hfound⟩ := State.inExpression_of_reject hmove
      have honbrace : OnBrace (extend {} text r) := by
        intro hs
        cases hs
      rcases hsteps.expression honbrace hexpr with ⟨hinside, -⟩ | ⟨v, w, hover, hmark⟩
      · cases hinside
      · have htext : text = v ++ '\x7b' :: '\x7b' :: w ++ [c] ++ x := by
          have hall := hover.unread
          rw [hunread] at hall
          rw [List.append_assoc, List.singleton_append]
          exact hall
        refine ⟨v, w, c, x, htext, hmark, ?_, hfound, ?_⟩
        · have hm : m.position = Position.start.after (v ++ '\x7b' :: '\x7b' :: w) :=
            hover.position
          rw [Position.after_append, ← hm]
          exact Buffer.position_advance_one hunread
        · intro y r'
          rw [htext, ← extend_extend {} _ x r r] at hsteps honbrace
          obtain ⟨m', hm', rfl, hsteps'⟩ :=
            hsteps.exchange hunread hexpr honbrace hresolve y r'
          obtain ⟨l'', hhalts'⟩ := (Halts.rejected hunread hmove).exchange hm' y r'
          rw [extend_extend] at hsteps'
          exact ⟨es, l'', _, hsteps', hhalts'⟩

end Lexer

end TemplateMarkup
