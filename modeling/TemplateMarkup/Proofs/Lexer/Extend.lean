import TemplateMarkup.Proofs.Lexer.Lookahead

/-!
# More text

Text that arrives behind the unread part of a lexer changes none of its steps, unless it completes
a reference (`Steps.extend`). What a part of a text leaves undone, the next part finds where it was
left.
-/

namespace TemplateMarkup

theorem Buffer.advance_push {b : Buffer} {n : Nat} (h : n ≤ b.unread.length) (cs : List Char) :
    (b.push cs).advance n = (b.advance n).push cs := by
  induction n generalizing b with
  | zero => rfl
  | succ n ih =>
      cases hunread : b.unread with
      | nil => simp [hunread] at h
      | cons c rest =>
          have hrest : n ≤ rest.length := by simpa [hunread] using h
          simpa [advance, push, hunread] using ih (b := ⟨c :: b.consumed, rest, _⟩) hrest

namespace Lexer

variable {resolve : Resolver} {l l' : Lexer} {es : List Event} {more : List Char} {r : Bool}

/-- The lexer with more text behind what is unread. -/
def extend (l : Lexer) (more : List Char) (r : Bool) : Lexer :=
  { l with buffer := l.buffer.push more, afterReturn := r }

@[simp] theorem state_extend : (l.extend more r).state = l.state := rfl

@[simp] theorem unread_extend :
    (l.extend more r).buffer.unread = l.buffer.unread ++ more := rfl

@[simp] theorem toList_extend : (l.extend more r).buffer.toList = l.buffer.toList ++ more :=
  Buffer.toList_push _ _

theorem take_extend {t : Take} (h : t.extra < l.buffer.unread.length) :
    (l.extend more r).take t = (l.take t).extend more r := by
  have hbuffer := Buffer.advance_push (Nat.succ_le_of_lt h) more
  cases hmark : t.mark with
  | none => simp [take, extend, hmark, hbuffer]
  | some mark => cases mark <;> simp [take, extend, hmark, Lexer.mark, hbuffer, position]

theorem advance_extend {n : Nat} (h : n ≤ l.buffer.unread.length) :
    { l.extend more r with buffer := (l.extend more r).buffer.advance n } =
      extend { l with buffer := l.buffer.advance n } more r := by
  simp [extend, Buffer.advance_push h]

/-! ## Steps with more text to come -/

theorem move_extend {c : Char} {rest : List Char} (hunread : l.buffer.unread = c :: rest)
    (hwait : l.state.move resolve l.position c rest ≠ .wait)
    (hcut : ¬ Reference.CutsReference resolve l.buffer.toList more) :
    (l.state.move resolve l.position c (rest ++ more)).mute =
      (l.state.move resolve l.position c rest).mute := by
  apply State.move_congr
  · intro hpeek
    have hrest : rest ≠ [] := fun h => hwait (State.move_eq_wait_iff.mpr ⟨hpeek, h⟩)
    cases rest with
    | nil => exact absurd rfl hrest
    | cons d ds => rfl
  · rintro rfl -
    rw [Buffer.toList, hunread] at hcut
    exact Reference.known?_append hcut

/-- A step is the same with more text to come, where that completes no reference. -/
theorem Step.extend (h : Step resolve l es l')
    (hcut : ¬ Reference.CutsReference resolve l.buffer.toList more) (r : Bool) :
    Step resolve (l.extend more r) es (l'.extend more r) := by
  cases h with
  | @reexamine c rest next es hunread hmove =>
      have hmute := move_extend hunread (by simp [hmove]) hcut
      rw [hmove] at hmute
      have hunread' : (l.extend more r).buffer.unread = c :: (rest ++ more) := by simp [hunread]
      exact .reexamine hunread' (Move.eq_of_mute_eq_reexamine hmute)
  | @take c rest t hunread hmove =>
      have hmute := move_extend hunread (by simp [hmove]) hcut
      rw [hmove] at hmute
      obtain ⟨note, hmove'⟩ := Move.eq_of_mute_eq_take hmute
      have hunread' : (l.extend more r).buffer.unread = c :: (rest ++ more) := by simp [hunread]
      have hextra : t.extra < l.buffer.unread.length := by
        have := State.extra_le_of_move hmove
        simp only [hunread, List.length_cons]
        omega
      have hstep := Step.take hunread' hmove'
      rw [← take_extend hextra]
      exact hstep

theorem Steps.extend (h : Steps resolve l es l')
    (hcut : ¬ Reference.CutsReference resolve l.buffer.toList more) (r : Bool) :
    Steps resolve (l.extend more r) es (l'.extend more r) := by
  induction h with
  | refl => exact .refl _
  | head first _ ih =>
      have first' := first.extend hcut r
      rw [← first.toList] at hcut
      exact .head first' (ih hcut)

/-- A rejected character is rejected whatever comes after it. -/
theorem Halts.extend {e : SyntaxError} (h : Halts resolve l l' (some e))
    (hcut : ¬ Reference.CutsReference resolve l.buffer.toList more) (r : Bool) :
    Halts resolve (l.extend more r) (l'.extend more r) (some e) := by
  cases h with
  | @rejected c rest cause hunread hmove =>
      have hmute := move_extend hunread (by simp [hmove]) hcut
      rw [hmove] at hmute
      have hunread' : (l.extend more r).buffer.unread = c :: (rest ++ more) := by simp [hunread]
      have hlength : 1 ≤ l.buffer.unread.length := by simp [hunread]
      have hhalts := Halts.rejected hunread' (Move.eq_of_mute_eq_reject hmute)
      rwa [advance_extend hlength] at hhalts

end Lexer

end TemplateMarkup
