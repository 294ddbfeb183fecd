import TemplateMarkup.Proofs.Lexer.Slice
import TemplateMarkup.Proofs.Lexer.Spelling
import TemplateMarkup.Proofs.Text.Dashes

/-!
# Reading comments

The lexer holds back the dashes that may belong to the end of a comment, up to two of them; a third one
is reported with them and forgotten. So its state is known from the text of the comment that it has
read (`InComment`), and what it has reported and what it holds back are that text
(`reads_commentText`). At an end it is done (`spells_comment_of_ends`), and a comment without one takes
all that is left (`finishes_comment`).
-/

namespace TemplateMarkup.Lexer

variable {resolve : Resolver} {s : State} {c : Char} {w : List Char} {l : Lexer}

/-! ## One character -/

/-- The state behind a part of a comment in which nothing has ended it. -/
inductive InComment : List Char → State → Prop
  | start : InComment [] .commentStart
  | startDash : InComment ['-'] .commentStartDash
  | text {w : List Char} (hne : w ≠ []) (h : trailingDashes w % 3 = 0) : InComment w .comment
  | dash {w : List Char} (hne : w ≠ ['-']) (h : trailingDashes w % 3 = 1) :
      InComment w .commentEndDash
  | dashes {w : List Char} (h : trailingDashes w % 3 = 2) : InComment w .commentEnd

/-- The dashes that are held back behind a part of a comment. -/
def heldBack (w : List Char) : List Char :=
  List.replicate (trailingDashes w % 3) '-'

theorem heldBack_of_mod {n : Nat} (h : trailingDashes w % 3 = n) :
    heldBack w = List.replicate n '-' := by
  rw [heldBack, h]

/-- A dash is held back, unless two of them are: then all three are reported. -/
theorem InComment.passes_dash (resolve : Resolver) (h : InComment w s) :
    ∃ (s' : State) (pieces : List String),
      Passes resolve s ['-'] (pieces.map .appendComment) s' ∧ InComment (w ++ ['-']) s' ∧
        heldBack w ++ ['-'] = pieces.flatMap String.toList ++ heldBack (w ++ ['-']) := by
  have hcount := trailingDashes_concat_dash w
  cases h with
  | start => exact ⟨.commentStartDash, [], .char fun _ _ => rfl, .startDash, rfl⟩
  | startDash => exact ⟨.commentEnd, [], .char fun _ _ => rfl, .dashes rfl, rfl⟩
  | text hne hmod =>
      have hmod' : trailingDashes (w ++ ['-']) % 3 = 1 := by omega
      refine ⟨.commentEndDash, [], .char fun _ _ => rfl, .dash (by simpa using hne) hmod', ?_⟩
      rw [heldBack_of_mod hmod, heldBack_of_mod hmod']
      rfl
  | dash hne hmod =>
      have hmod' : trailingDashes (w ++ ['-']) % 3 = 2 := by omega
      refine ⟨.commentEnd, [], .char fun _ _ => rfl, .dashes hmod', ?_⟩
      rw [heldBack_of_mod hmod, heldBack_of_mod hmod']
      rfl
  | dashes hmod =>
      have hmod' : trailingDashes (w ++ ['-']) % 3 = 0 := by omega
      refine ⟨.comment, ["--", "-"], .char fun _ _ => rfl, .text (by simp) hmod', ?_⟩
      rw [heldBack_of_mod hmod, heldBack_of_mod hmod']
      rfl

/-- Any other character is reported, with all that is held back. -/
theorem InComment.passes_other (resolve : Resolver) (h : InComment w s) (hc : c ≠ '-')
    (hgoes : ¬EndsComment (w ++ [c]) w.length) :
    ∃ pieces : List String, Passes resolve s [c] (pieces.map .appendComment) .comment ∧
      heldBack w ++ [c] = pieces.flatMap String.toList := by
  rw [endsComment_length, CommentMayEnd] at hgoes
  cases h with
  | start =>
      have hend : c ≠ '>' := by simpa using hgoes
      exact ⟨[String.singleton c], .char fun _ _ => by simp [State.move, hc, hend],
        by simp [heldBack]⟩
  | startDash =>
      have hend : c ≠ '>' := by simpa using hgoes
      exact ⟨["-", String.singleton c], .char fun _ _ => by simp [State.move, hc, hend],
        by simp [heldBack, trailingDashes]⟩
  | text _ hmod =>
      exact ⟨[String.singleton c], .char fun _ _ => by simp [State.move, hc],
        by simp [heldBack_of_mod hmod]⟩
  | dash _ hmod =>
      exact ⟨["-", String.singleton c], .char fun _ _ => by simp [State.move, hc],
        by simp [heldBack_of_mod hmod]⟩
  | dashes hmod =>
      have hend : c ≠ '>' := by simpa [hmod] using hgoes
      exact ⟨["--", String.singleton c], .char fun _ _ => by simp [State.move, hend],
        by simp [heldBack_of_mod hmod]⟩

/-- One character that does not end the comment: what was held back and the character are reported, or
are held back from now on. -/
theorem InComment.passes_char (resolve : Resolver) (h : InComment w s)
    (hgoes : ¬EndsComment (w ++ [c]) w.length) :
    ∃ (s' : State) (pieces : List String),
      Passes resolve s [c] (pieces.map .appendComment) s' ∧ InComment (w ++ [c]) s' ∧
        heldBack w ++ [c] = pieces.flatMap String.toList ++ heldBack (w ++ [c]) := by
  by_cases hc : c = '-'
  · subst hc
    exact h.passes_dash resolve
  · obtain ⟨pieces, hpasses, heq⟩ := h.passes_other resolve hc hgoes
    have hnone : trailingDashes (w ++ [c]) % 3 = 0 := by
      rw [trailingDashes_concat_of_ne hc]
    refine ⟨.comment, pieces, hpasses, .text (by simp) hnone, ?_⟩
    rw [heq, heldBack_of_mod hnone, List.replicate_zero, List.append_nil]

/-- The `>` that ends a comment. -/
theorem InComment.closes (h : InComment w s) (hends : CommentMayEnd w) :
    Closes resolve s ['>'] [] .finishComment := by
  cases h with
  | text hne hmod =>
      rcases hends with hmod' | rfl | rfl
      · omega
      · exact absurd rfl hne
      · cases hmod
  | dash hne hmod =>
      rcases hends with hmod' | rfl | rfl
      · omega
      · cases hmod
      · exact absurd rfl hne
  | _ => exact .char fun _ _ => rfl

/-! ## All of a comment -/

/-- **The text of a comment.** As long as nothing ends the comment, what is reported and what is held
back are what was read. -/
theorem reads_commentText (resolve : Resolver) (hgoes : ∀ e, ¬EndsComment w e) :
    ∃ (s : State) (pieces : List String),
      Passes resolve .commentStart w (pieces.map .appendComment) s ∧ InComment w s ∧
        w = pieces.flatMap String.toList ++ heldBack w := by
  induction w using List.reverseRecOn with
  | nil => exact ⟨.commentStart, [], .nil _, .start, rfl⟩
  | append_singleton w c ih =>
      obtain ⟨s₁, pieces, hpasses, hw, heq⟩ := ih (not_endsComment_of_append fun i _ => hgoes i)
      obtain ⟨s₂, pieces', hchar, hwc, heq'⟩ := hw.passes_char resolve (hgoes w.length)
      refine ⟨s₂, pieces ++ pieces', ?_, hwc, ?_⟩
      · rw [List.map_append]
        exact hpasses.trans hchar
      · calc w ++ [c] = pieces.flatMap String.toList ++ (heldBack w ++ [c]) := by
              rw [← List.append_assoc, ← heq]
          _ = (pieces ++ pieces').flatMap String.toList ++ heldBack (w ++ [c]) := by
              rw [heq', List.flatMap_append, List.append_assoc]

theorem passes_commentOpening (resolve : Resolver) :
    Passes resolve .tagOpen ['!', '-', '-'] [.beginComment] .commentStart := by
  have hbang : Passes resolve .tagOpen ['!'] [] .markupDeclaration := .char fun _ _ => rfl
  have hdashes : Passes resolve .markupDeclaration ['-', '-'] [.beginComment] .commentStart :=
    .take (t := { next := .commentStart, events := [.beginComment], extra := 1 })
      (fun _ _ => rfl) rfl
  exact hbang.trans hdashes

theorem eq_append_heldBack (hends : CommentMayEnd w) :
    w = (commentText w).toList ++ heldBack w := by
  rcases hends with hmod | rfl | rfl
  · obtain ⟨front, rfl⟩ := two_dashes_suffix (w := w) (by omega)
    rw [commentText, if_pos hmod, heldBack_of_mod hmod]
    simp
  · rfl
  · rfl

/-- A comment up to its end. What is held back there is no part of its text. -/
theorem spells_comment_of_ends (resolve : Resolver) (hends : CommentMayEnd w)
    (hgoes : ∀ e, ¬EndsComment w e) :
    Spells resolve .tagOpen (['!', '-', '-'] ++ w ++ ['>']) (.comment (commentText w)) := by
  obtain ⟨s, pieces, hpasses, hw, heq⟩ := reads_commentText resolve hgoes
  have hjoin : String.join pieces = commentText w := by
    rw [← String.toList_inj, String.toList_join]
    exact List.append_cancel_right (heq.symm.trans (eq_append_heldBack hends))
  have hcloses := ((passes_commentOpening resolve).trans hpasses).closes (hw.closes hends)
  refine hcloses.spells fun stop => ⟨.comment pieces stop, ?_, ?_⟩
  · simp [Construct.kind, hjoin]
  · simp [Construct.events]

theorem spells_comment (resolve : Resolver) {text : String} (h : IsCommentText text.toList) :
    Spells resolve .tagOpen (['!', '-', '-'] ++ text.toList ++ ['-', '-', '>']) (.comment text) := by
  have hnone : trailingDashes text.toList = 0 := trailingDashes_eq_zero h.last
  have hends : CommentMayEnd (text.toList ++ ['-', '-']) := .inl (by simp [hnone])
  have hgoes := not_endsComment_of_inside h.start h.startDash h.inside
  have hspells := spells_comment_of_ends resolve hends hgoes
  rw [commentText_append_dashes (by simp [hnone])] at hspells
  simpa using hspells

/-- A comment that nothing ends. -/
theorem finishes_comment (resolve : Resolver) (hgoes : ∀ e, ¬EndsComment w e)
    (hl : l.state = .tagOpen) (hunread : l.buffer.unread = ['!', '-', '-'] ++ w) :
    ∃ pieces : List String,
      Finishes resolve l (.beginComment :: pieces.map .appendComment) := by
  obtain ⟨s, pieces, hpasses, hw, -⟩ := reads_commentText resolve hgoes
  obtain ⟨l', hsteps, hl', hunread'⟩ :=
    (passes_commentOpening resolve).trans hpasses l [] hl (by simpa using hunread)
  have hflush : l'.flush.events = [] := by
    have hdata : l'.state ≠ .data := by
      rw [hl']
      cases hw <;> decide
    simp [flush, settle, hunread', hdata]
  refine ⟨pieces, ?_⟩
  have hend : Finishes resolve l' l'.flush.events := (Halts.exhausted hunread').finishes
  rw [hflush] at hend
  simpa using hsteps.finishes hend

end TemplateMarkup.Lexer
