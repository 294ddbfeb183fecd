/-!
# Line endings

A carriage return becomes a line feed, and a line feed directly after one disappears. What happens
to a character depends on the one before it only, so a text may be folded in pieces: it is enough
to remember whether the last piece ended in a carriage return.
-/

namespace TemplateMarkup.LineEnding

/-- What is left of `c`, given whether a carriage return stands before it. -/
def foldChar (afterReturn : Bool) (c : Char) : Option Char :=
  if c = '\r' then some '\n'
  else if c = '\n' ∧ afterReturn then none
  else some c

/-- Folds a text of which it is known whether a carriage return stands before it. -/
def fold (afterReturn : Bool) (cs : List Char) : List Char :=
  ((afterReturn :: cs.map (· == '\r')).zip cs).filterMap fun (r, c) => foldChar r c

/-- Whether a carriage return is the last character, once `cs` has followed. -/
def endsInReturn (afterReturn : Bool) (cs : List Char) : Bool :=
  (cs.getLast?.map (· == '\r')).getD afterReturn

/-- The whole text with every line ending folded to a line feed. -/
def normalize (text : String) : String :=
  String.ofList (fold false text.toList)

@[simp] theorem fold_nil (r : Bool) : fold r [] = [] := rfl

theorem fold_cons (r : Bool) (c : Char) (cs : List Char) :
    fold r (c :: cs) = (foldChar r c).toList ++ fold (c == '\r') cs := by
  cases h : foldChar r c <;> simp [fold, h]

@[simp] theorem endsInReturn_nil (r : Bool) : endsInReturn r [] = r := rfl

theorem endsInReturn_cons (r : Bool) (c : Char) (cs : List Char) :
    endsInReturn r (c :: cs) = endsInReturn (c == '\r') cs := by
  cases cs <;> simp [endsInReturn, List.getLast?_cons]

/-- Folding in pieces is folding the whole, when the pending return is handed on. -/
theorem fold_append (r : Bool) (cs ds : List Char) :
    fold r (cs ++ ds) = fold r cs ++ fold (endsInReturn r cs) ds := by
  induction cs generalizing r with
  | nil => simp
  | cons c cs ih => simp [fold_cons, endsInReturn_cons, ih]

end TemplateMarkup.LineEnding
