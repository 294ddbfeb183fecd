import Mathlib

/-!
# Where a comment ends

A comment ends at a `>`, and the dashes in front of it decide which one. In the middle of a comment
dashes count in threes, so that two are needed, or five, or eight; at its very start none will do, or
one (`EndsComment`). The first `-->` is not always such a place, but no place lies in front of it
(`not_endsComment_of_inside`).
-/

namespace TemplateMarkup

variable {w rest : List Char} {c : Char} {e : Nat}

/-! ## Dashes at the end of a text -/

/-- The number of dashes that the text ends in. -/
def trailingDashes (w : List Char) : Nat :=
  (w.reverse.takeWhile (· == '-')).length

@[simp] theorem trailingDashes_nil : trailingDashes [] = 0 := rfl

@[simp] theorem trailingDashes_concat_dash (w : List Char) :
    trailingDashes (w ++ ['-']) = trailingDashes w + 1 := by
  simp [trailingDashes]

theorem trailingDashes_concat_of_ne (h : c ≠ '-') (w : List Char) :
    trailingDashes (w ++ [c]) = 0 := by
  simp [trailingDashes, h]

@[simp] theorem trailingDashes_append_dashes (w : List Char) :
    trailingDashes (w ++ ['-', '-']) = trailingDashes w + 2 := by
  simp [trailingDashes]

/-- The dashes are there. -/
theorem replicate_trailingDashes_suffix (w : List Char) :
    List.replicate (trailingDashes w) '-' <:+ w := by
  induction w using List.reverseRecOn with
  | nil => exact List.suffix_rfl
  | append_singleton w c ih =>
      by_cases hc : c = '-'
      · subst hc
        obtain ⟨front, hfront⟩ := ih
        refine ⟨front, ?_⟩
        rw [trailingDashes_concat_dash, List.replicate_succ', ← List.append_assoc, hfront]
      · rw [trailingDashes_concat_of_ne hc]
        exact List.nil_suffix

theorem two_dashes_suffix (h : 2 ≤ trailingDashes w) : ['-', '-'] <:+ w := by
  obtain ⟨n, hn⟩ := Nat.exists_eq_add_of_le' h
  have hall := replicate_trailingDashes_suffix w
  rw [hn, List.replicate_add] at hall
  exact (List.suffix_append _ _).trans hall

theorem trailingDashes_eq_zero (h : ¬['-'] <:+ w) : trailingDashes w = 0 := by
  induction w using List.reverseRecOn with
  | nil => rfl
  | append_singleton w c _ =>
      refine trailingDashes_concat_of_ne ?_ w
      rintro rfl
      exact h (List.suffix_append w ['-'])

/-! ## Ends of a comment -/

/-- Behind this text a `>` ends the comment. -/
def CommentMayEnd (w : List Char) : Prop :=
  trailingDashes w % 3 = 2 ∨ w = [] ∨ w = ['-']

/-- The text of a comment that ends behind `w`. -/
def commentText (w : List Char) : String :=
  if trailingDashes w % 3 = 2 then String.ofList (w.take (w.length - 2)) else ""

theorem commentText_append_dashes (h : trailingDashes w % 3 = 0) :
    commentText (w ++ ['-', '-']) = String.ofList w := by
  have hmod : trailingDashes (w ++ ['-', '-']) % 3 = 2 := by
    rw [trailingDashes_append_dashes]
    omega
  rw [commentText, if_pos hmod]
  simp

/-- Of the dashes in front of its end a comment keeps a multiple of three. -/
theorem mod_trailingDashes_commentText (h : CommentMayEnd w) :
    trailingDashes (commentText w).toList % 3 = 0 := by
  rcases h with hmod | rfl | rfl
  · obtain ⟨front, rfl⟩ := two_dashes_suffix (w := w) (by omega)
    rw [trailingDashes_append_dashes] at hmod
    have hfront : trailingDashes front % 3 = 0 := by omega
    rwa [commentText_append_dashes hfront, String.toList_ofList]
  · rfl
  · rfl

/-- The `>` at the place `e` of a text ends a comment that is open since the beginning of the text. -/
def EndsComment (b : List Char) (e : Nat) : Prop :=
  b[e]? = some '>' ∧
    (trailingDashes (b.take e) % 3 = 2 ∨ e = trailingDashes (b.take e) ∧ e ≤ 1)

instance (b : List Char) (e : Nat) : Decidable (EndsComment b e) :=
  inferInstanceAs (Decidable (b[e]? = some '>' ∧
    (trailingDashes (b.take e) % 3 = 2 ∨ e = trailingDashes (b.take e) ∧ e ≤ 1)))

/-- What stands behind the place does not matter. -/
theorem endsComment_append (he : e < w.length) (rest : List Char) :
    EndsComment (w ++ rest) e ↔ EndsComment w e := by
  unfold EndsComment
  rw [List.getElem?_append_left he, List.take_append_of_le_length he.le]

theorem endsComment_length :
    EndsComment (w ++ c :: rest) w.length ↔ c = '>' ∧ CommentMayEnd w := by
  have hshort : w.length = trailingDashes w ∧ w.length ≤ 1 ↔ w = [] ∨ w = ['-'] := by
    rcases w with _ | ⟨d, _ | ⟨d', w⟩⟩
    · simp
    · by_cases hd : d = '-' <;> simp [trailingDashes, hd]
    · simp
  simp [EndsComment, CommentMayEnd, hshort]

theorem EndsComment.lt_length (h : EndsComment w e) : e < w.length :=
  (List.getElem?_eq_some_iff.mp h.1).1

/-- The text in front of an end, and the text behind it. -/
theorem EndsComment.split (h : EndsComment w e) :
    ∃ front rest, w = front ++ '>' :: rest ∧ e = front.length ∧ CommentMayEnd front := by
  obtain ⟨front, rest, rfl, rfl⟩ : ∃ front rest, w = front ++ '>' :: rest ∧ e = front.length := by
    obtain ⟨hlt, hget⟩ := List.getElem?_eq_some_iff.mp h.1
    refine ⟨w.take e, w.drop (e + 1), ?_, ?_⟩
    · rw [← hget, ← List.drop_eq_getElem_cons hlt, List.take_append_drop]
    · rw [List.length_take, min_eq_left hlt.le]
  exact ⟨front, rest, rfl, rfl, (endsComment_length.mp h).2⟩

/-- Where nothing ends the comment up to some place, nothing ends it in the text up to there. -/
theorem not_endsComment_of_append (h : ∀ i < w.length, ¬EndsComment (w ++ rest) i) (e : Nat) :
    ¬EndsComment w e := by
  intro hend
  exact h e hend.lt_length ((endsComment_append hend.lt_length rest).mpr hend)

/-- In front of the first `-->` a comment ends only at its very start. -/
theorem not_endsComment_of_inside (hstart : ¬['>'] <+: w) (hdash : ¬['-', '>'] <+: w)
    (hinside : ¬['-', '-', '>'] <:+: w) (e : Nat) : ¬EndsComment (w ++ ['-', '-']) e := by
  intro hend
  have hlt : e < w.length := by
    by_contra hge
    have hget := hend.1
    rw [List.getElem?_append_right (not_lt.mp hge)] at hget
    have hmem := List.mem_of_getElem? hget
    simp at hmem
  rw [endsComment_append hlt] at hend
  obtain ⟨front, rest, rfl, -, hdashes | rfl | rfl⟩ := hend.split
  · obtain ⟨front, rfl⟩ := two_dashes_suffix (w := front) (by omega)
    exact hinside ⟨front, rest, by simp⟩
  · exact hstart ⟨rest, rfl⟩
  · exact hdash ⟨rest, rfl⟩

/-- The first `-->` behind a text is the first one only if there is none in the text. -/
theorem not_infix_of_first (h : ∀ i < w.length, ¬['-', '-', '>'] <+: (w ++ ['-', '-', '>']).drop i) :
    ¬['-', '-', '>'] <:+: w := by
  rintro ⟨front, rest, rfl⟩
  refine h front.length (by simp) ?_
  simp

end TemplateMarkup
