import Mathlib.Data.List.Infix
import TemplateMarkup.Source.Buffer

/-!
# Positions in a text

The position after a text is the fold of `Position.next` over it. Positions grow from character to
character, by line and then by column, so two offsets of one text never have the same position.
The cursor of a buffer is the position after the characters before it, however it got there.
-/

namespace TemplateMarkup

namespace Position

/-- The position after the characters `cs`, the first of which stands at `p`. -/
def after (p : Position) (cs : List Char) : Position :=
  cs.foldl next p

@[simp] theorem after_nil (p : Position) : p.after [] = p := rfl

@[simp] theorem after_cons (p : Position) (c : Char) (cs : List Char) :
    p.after (c :: cs) = (p.next c).after cs := rfl

theorem after_append (p : Position) (cs ds : List Char) :
    p.after (cs ++ ds) = (p.after cs).after ds :=
  List.foldl_append

/-- The order of reading: by line, and within a line by column. -/
def Before (p q : Position) : Prop :=
  p.line < q.line ∨ p.line = q.line ∧ p.column < q.column

theorem Before.trans {p q r : Position} (hpq : p.Before q) (hqr : q.Before r) : p.Before r := by
  unfold Before at *
  omega

theorem Before.ne {p q : Position} (h : p.Before q) : p ≠ q := by
  rintro rfl
  unfold Before at h
  omega

theorem before_next (p : Position) (c : Char) : p.Before (p.next c) := by
  unfold Before next
  split <;> simp

theorem before_after (p : Position) {cs : List Char} (h : cs ≠ []) : p.Before (p.after cs) := by
  induction cs generalizing p with
  | nil => exact absurd rfl h
  | cons c cs ih =>
      rcases eq_or_ne cs [] with rfl | hcs
      · exact before_next p c
      · exact (before_next p c).trans (ih (p.next c) hcs)

/-- Two beginnings of one text that end at the same position are the same. -/
theorem after_inj {p : Position} {text cs ds : List Char} (hcs : cs <+: text) (hds : ds <+: text)
    (h : p.after cs = p.after ds) : cs = ds := by
  -- one of the two begins the other, and what is left over would move the position on
  have longer : ∀ {as bs : List Char}, as <+: bs → p.after as = p.after bs → as = bs := by
    rintro as bs ⟨rest, rfl⟩ heq
    rw [after_append] at heq
    by_contra hne
    have hrest : rest ≠ [] := by
      rintro rfl
      simp at hne
    exact (before_after (p.after as) hrest).ne heq
  rcases List.prefix_or_prefix_of_prefix hcs hds with hpre | hpre
  · exact longer hpre h
  · exact (longer hpre h.symm).symm

/-- The position at an offset of a document. -/
def atOffset (text : List Char) (k : Nat) : Position :=
  start.after (text.take k)

theorem atOffset_append {text more : List Char} {k : Nat} (h : k ≤ text.length) :
    atOffset (text ++ more) k = atOffset text k := by
  rw [atOffset, atOffset, List.take_append_of_le_length h]

theorem atOffset_length_append (text more : List Char) :
    atOffset (text ++ more) text.length = start.after text := by
  rw [atOffset, List.take_left]

/-- Positions grow with the offset. -/
theorem atOffset_before {text : List Char} {j k : Nat} (hjk : j < k) (hk : k ≤ text.length) :
    (atOffset text j).Before (atOffset text k) := by
  obtain ⟨d, rfl⟩ := Nat.exists_eq_add_of_lt hjk
  have hsplit : text.take (j + d + 1) = text.take j ++ (text.drop j).take (d + 1) := by
    rw [Nat.add_assoc, List.take_add]
  rw [atOffset, atOffset, hsplit, after_append]
  apply before_after
  rw [Ne, ← List.length_eq_zero_iff, List.length_take, List.length_drop]
  omega

end Position

namespace Buffer

theorem consumed_advance (b : Buffer) (n : Nat) :
    (b.advance n).consumed = (b.unread.take n).reverse ++ b.consumed := by
  induction n generalizing b with
  | zero => rfl
  | succ n ih =>
      cases h : b.unread with
      | nil => simp [advance, h]
      | cons c rest => simp [advance, h, ih]

theorem position_advance (b : Buffer) (n : Nat) :
    (b.advance n).position = b.position.after (b.unread.take n) := by
  induction n generalizing b with
  | zero => rfl
  | succ n ih =>
      cases h : b.unread with
      | nil => simp [advance, h]
      | cons c rest => simp [advance, h, ih]

theorem advance_succ (b : Buffer) (n : Nat) :
    (b.advance 1).advance n = b.advance (n + 1) := by
  cases h : b.unread with
  | nil => cases n <;> simp [advance, h]
  | cons c rest => simp [advance, h]

theorem index_advance (b : Buffer) {n : Nat} (h : n ≤ b.unread.length) :
    (b.advance n).index = b.index + n := by
  simp only [index, consumed_advance, List.length_append, List.length_reverse, List.length_take]
  omega

theorem length_toList (b : Buffer) : b.toList.length = b.index + b.unread.length := by
  simp [toList, index]

/-- Moving the cursor leaves the text as it is. -/
@[simp] theorem toList_advance (b : Buffer) (n : Nat) : (b.advance n).toList = b.toList := by
  rw [toList, consumed_advance, unread_advance, List.reverse_append, List.reverse_reverse,
    List.append_assoc, List.take_append_drop, toList]

@[simp] theorem position_push (b : Buffer) (cs : List Char) :
    (b.push cs).position = b.position := rfl

@[simp] theorem toList_push (b : Buffer) (cs : List Char) :
    (b.push cs).toList = b.toList ++ cs := by
  simp [toList, push]

/-- The position of the cursor is the one after the characters before it. -/
def Placed (b : Buffer) : Prop :=
  b.position = Position.start.after b.consumed.reverse

theorem placed_empty : (∅ : Buffer).Placed := rfl

theorem Placed.advance {b : Buffer} (h : b.Placed) (n : Nat) : (b.advance n).Placed := by
  rw [Placed, position_advance, consumed_advance, List.reverse_append, List.reverse_reverse,
    Position.after_append, ← h]

theorem Placed.push {b : Buffer} (h : b.Placed) (cs : List Char) : (b.push cs).Placed := h

/-- The position of the cursor belongs to its offset. -/
theorem Placed.atOffset {b : Buffer} (h : b.Placed) :
    Position.atOffset b.toList b.index = b.position := by
  have hindex : b.index = b.consumed.reverse.length := by simp [index]
  rw [hindex, toList, Position.atOffset_length_append, h]

theorem Placed.atOffset_advance {b : Buffer} (h : b.Placed) {n : Nat} (hn : n ≤ b.unread.length) :
    Position.atOffset b.toList (b.index + n) = (b.advance n).position := by
  have hplaced := (h.advance n).atOffset
  rwa [toList_advance, index_advance b hn] at hplaced

theorem position_advance_one {b : Buffer} {c : Char} {rest : List Char} (h : b.unread = c :: rest) :
    (b.advance 1).position = b.position.next c := by
  simp [advance, h]

end Buffer

end TemplateMarkup
