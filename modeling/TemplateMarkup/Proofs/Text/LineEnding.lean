import TemplateMarkup.Text.LineEnding

/-!
# Folded text

A folded text holds no carriage return, and a text without carriage returns is folded already. What
is carried from one piece of a text to the next may be carried over both at once.
-/

namespace TemplateMarkup.LineEnding

theorem endsInReturn_append (r : Bool) (cs ds : List Char) :
    endsInReturn r (cs ++ ds) = endsInReturn (endsInReturn r cs) ds := by
  induction cs generalizing r with
  | nil => rfl
  | cons c cs ih => simp [endsInReturn_cons, ih]

theorem foldChar_ne_return (r : Bool) (c : Char) : foldChar r c ≠ some '\r' := by
  unfold foldChar
  split
  · simp
  · rename_i hc
    split
    · simp
    · intro h
      exact hc (Option.some.inj h)

theorem return_notMem_fold (r : Bool) (cs : List Char) : '\r' ∉ fold r cs := by
  induction cs generalizing r with
  | nil => simp
  | cons c cs ih =>
      rw [fold_cons, List.mem_append]
      rintro (hc | hcs)
      · exact foldChar_ne_return r c (Option.mem_toList.mp hc)
      · exact ih _ hcs

/-- Folding brings nothing but line feeds. -/
theorem mem_of_mem_fold {r : Bool} {cs : List Char} {c : Char} (h : c ∈ fold r cs)
    (hc : c ≠ '\n') : c ∈ cs := by
  induction cs generalizing r with
  | nil => simp at h
  | cons d cs ih =>
      rw [fold_cons, List.mem_append] at h
      rcases h with hd | hcs
      · have hsome : foldChar r d = some c := Option.mem_toList.mp hd
        unfold foldChar at hsome
        split at hsome
        · exact absurd (Option.some.inj hsome).symm hc
        · split at hsome
          · cases hsome
          · simp [Option.some.inj hsome]
      · exact List.mem_cons_of_mem _ (ih hcs)

/-- The first character of a text is never folded away. It may become a line feed. -/
theorem exists_fold_of_ne_nil {cs : List Char} (h : cs ≠ []) :
    ∃ d rest, fold false cs = d :: rest ∧ ∀ e, e ≠ '\n' → cs.head? ≠ some e → d ≠ e := by
  obtain ⟨c, cs, rfl⟩ := List.exists_cons_of_ne_nil h
  obtain ⟨d, rest, hfold, hd⟩ :
      ∃ d rest, fold false (c :: cs) = d :: rest ∧ (d = c ∨ d = '\n') := by
    by_cases hc : c = '\r' <;> simp [fold_cons, foldChar, hc]
  refine ⟨d, rest, hfold, ?_⟩
  rintro e he hhead rfl
  rcases hd with rfl | rfl
  · exact hhead rfl
  · exact he rfl

theorem fold_ne_nil {cs : List Char} (h : cs ≠ []) : fold false cs ≠ [] := by
  obtain ⟨d, rest, hfold, -⟩ := exists_fold_of_ne_nil h
  simp [hfold]

theorem fold_of_notMem {cs : List Char} (h : '\r' ∉ cs) : fold false cs = cs := by
  induction cs with
  | nil => rfl
  | cons c cs ih =>
      have hc : c ≠ '\r' := by
        rintro rfl
        simp at h
      have hcs : '\r' ∉ cs := fun hmem => h (by simp [hmem])
      have hfalse : (c == '\r') = false := by simpa using hc
      rw [fold_cons, hfalse, ih hcs]
      simp [foldChar, hc]

theorem endsInReturn_of_notMem {cs : List Char} (h : '\r' ∉ cs) : endsInReturn false cs = false := by
  rw [endsInReturn]
  cases hlast : cs.getLast? with
  | none => rfl
  | some c =>
      have hc : c ≠ '\r' := fun heq => h (heq ▸ List.mem_of_getLast? hlast)
      simpa using hc

/-- A text without carriage returns has no influence on what follows it. -/
theorem normalize_append {s : String} (h : '\r' ∉ s.toList) (s' : String) :
    normalize (s ++ s') = s ++ normalize s' := by
  rw [← String.toList_inj]
  simp [normalize, fold_append, fold_of_notMem h, endsInReturn_of_notMem h]

/-- Every beginning of a folded text is folded. -/
theorem fold_take_fold (r : Bool) (cs : List Char) (n : Nat) :
    fold false ((fold r cs).take n) = (fold r cs).take n :=
  fold_of_notMem fun hmem => return_notMem_fold r cs (List.mem_of_mem_take hmem)

end TemplateMarkup.LineEnding
