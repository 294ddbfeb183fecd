import Mathlib.Logic.ExistsUnique
import TemplateMarkup.Proofs.Text.LineEnding

/-!
# Line endings in a text

Every text divides in exactly one way into line endings and other characters, where a return takes
the line feed behind it along (`existsUnique_divides`). Folding makes one line feed of every line
ending that has a return in it, and keeps every other character in its place
(`normalize_of_divides`).
-/

namespace TemplateMarkup.LineEnding

/-- A line ending with a return in it, or any other character. -/
inductive Piece where
  /-- A return and a line feed. -/
  | pair
  /-- A return on its own. -/
  | lone
  | other (c : Char) (h : c ≠ '\r')
deriving DecidableEq, Repr

namespace Piece

def source : Piece → List Char
  | pair => ['\r', '\n']
  | lone => ['\r']
  | other c _ => [c]

def folded : Piece → Char
  | pair => '\n'
  | lone => '\n'
  | other c _ => c

end Piece

/-- The pieces, one after the other, are the text, and a return is on its own only where no line feed
follows it. -/
inductive Divides : List Piece → List Char → Prop
  | nil : Divides [] []
  | cons {p : Piece} {ps : List Piece} {cs : List Char} (tail : Divides ps cs)
      (hlone : p = .lone → cs.head? ≠ some '\n') : Divides (p :: ps) (p.source ++ cs)

variable {ps qs : List Piece} {cs : List Char}

theorem exists_divides (cs : List Char) : ∃ ps, Divides ps cs := by
  induction cs with
  | nil => exact ⟨[], .nil⟩
  | cons c cs ih =>
      obtain ⟨ps, hps⟩ := ih
      by_cases hc : c = '\r'
      · subst hc
        by_cases hfeed : cs.head? = some '\n'
        · -- the line feed was a piece of its own, and now belongs to the return
          cases hps with
          | nil => cases hfeed
          | @cons p ps cs hps _ =>
              cases p with
              | pair => cases hfeed
              | lone => cases hfeed
              | other d hd =>
                  obtain rfl : d = '\n' := by simpa [Piece.source] using hfeed
                  exact ⟨.pair :: ps, .cons hps fun h => by cases h⟩
        · exact ⟨.lone :: ps, .cons hps fun _ => hfeed⟩
      · exact ⟨.other c hc :: ps, .cons hps fun h => by cases h⟩

theorem Divides.eq (h : Divides ps cs) (h' : Divides qs cs) : qs = ps := by
  induction h generalizing qs with
  | nil =>
      generalize hcs : ([] : List Char) = cs at h'
      cases h' with
      | nil => rfl
      | @cons q => cases q <;> cases hcs
  | @cons p ps cs hps hlone ih =>
      generalize hwhole : p.source ++ cs = whole at h'
      cases h' with
      | nil => cases p <;> cases hwhole
      | @cons q qs cs' hqs hlone' =>
          have hpiece : q = p ∧ cs' = cs := by
            cases p <;> cases q <;> simp_all [Piece.source] <;> grind
          obtain ⟨rfl, rfl⟩ := hpiece
          rw [ih hqs]

/-- Every text has one division. -/
theorem existsUnique_divides (cs : List Char) : ∃! ps, Divides ps cs := by
  obtain ⟨ps, hps⟩ := exists_divides cs
  exact ⟨ps, hps, fun qs hqs => hps.eq hqs⟩

/-- After a return only a line feed is folded away. -/
theorem fold_of_head?_ne (h : cs.head? ≠ some '\n') (r : Bool) : fold r cs = fold false cs := by
  cases cs with
  | nil => simp
  | cons c cs =>
      have hc : c ≠ '\n' := by simpa using h
      simp [fold_cons, foldChar, hc]

theorem Divides.fold (h : Divides ps cs) : fold false cs = ps.map Piece.folded := by
  induction h with
  | nil => rfl
  | @cons p ps cs _ hlone ih =>
      rw [List.map_cons, ← ih]
      cases p with
      | pair => simp [Piece.source, Piece.folded, fold_cons, foldChar]
      | lone =>
          have hrest := fold_of_head?_ne (hlone rfl) true
          simp [Piece.source, Piece.folded, fold_cons, foldChar, hrest]
      | other c hc =>
          have hother : (c == '\r') = false := by simpa using hc
          simp [Piece.source, Piece.folded, fold_cons, foldChar, hc, hother]

/-- Every line ending becomes one line feed, and every other character stays in its place. -/
theorem normalize_of_divides {text : String} (h : Divides ps text.toList) :
    normalize text = String.ofList (ps.map Piece.folded) := by
  rw [normalize, h.fold]

/-- A text without returns is left as it is. -/
theorem normalize_of_notMem {text : String} (h : '\r' ∉ text.toList) : normalize text = text := by
  rw [normalize, fold_of_notMem h, String.ofList_toList]

theorem return_notMem_normalize (text : String) : '\r' ∉ (normalize text).toList := by
  rw [normalize, String.toList_ofList]
  exact return_notMem_fold false _

end TemplateMarkup.LineEnding
