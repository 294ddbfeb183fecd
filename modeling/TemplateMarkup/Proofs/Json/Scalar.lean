import Mathlib.Data.List.Infix
import TemplateMarkup.Json.Basic

/-!
# Where a printed scalar ends

A printed form is readable if it says what was printed and where it ends, whatever it is followed by
(`Readable`). A string ends at the first quote that no backslash stands in front of: no escape is the
beginning of another one, and none of them begins with a quote. A number ends where its digits do, so
what follows it must not begin with a digit.
-/

namespace TemplateMarkup.Json

/-- What may follow a printed value: anything that does not begin with a digit. -/
def Follows (rest : List Char) : Prop :=
  ∀ c ∈ rest.head?, c.isDigit = false

theorem follows_nil : Follows [] := by
  simp [Follows]

theorem follows_cons {c : Char} (h : c.isDigit = false) (rest : List Char) : Follows (c :: rest) := by
  simpa [Follows] using h

/-- The printed form of `a` is that of nothing else, and its end is found. -/
def Readable {α : Type} (print : α → String) (a : α) : Prop :=
  ∀ b rest rest', Follows rest → Follows rest' →
    (print a).toList ++ rest = (print b).toList ++ rest' → a = b ∧ rest = rest'

theorem Readable.eq {α : Type} {print : α → String} {a b : α} (h : Readable print a)
    (heq : print a = print b) : a = b :=
  (h b [] [] follows_nil follows_nil (by rw [heq])).1

/-! ## Characters -/

/-- The characters that a printed string does not hold as they are. -/
def escaped : List Char :=
  '"' :: '\\' :: (List.range 0x20).map Char.ofNat

theorem mem_escaped_of_lt {c : Char} (h : c.toNat < 0x20) : c ∈ escaped := by
  have hmem : c ∈ (List.range 0x20).map Char.ofNat :=
    List.mem_map.mpr ⟨c.toNat, List.mem_range.mpr h, Char.ofNat_toNat c⟩
  simp [escaped, hmem]

theorem escape_of_notMem {c : Char} (h : c ∉ escaped) : (escape c).toList = [c] := by
  have hlt : ¬ c.toNat < 0x20 := fun hlt => h (mem_escaped_of_lt hlt)
  have hne : ∀ d ∈ escaped, c ≠ d := by
    rintro d hd rfl
    exact h hd
  unfold escape
  rw [if_neg (hne '"' (by decide)), if_neg (hne '\\' (by decide)), if_neg (hne '\x08' (by decide)),
    if_neg (hne '\x0c' (by decide)), if_neg (hne '\n' (by decide)), if_neg (hne '\r' (by decide)),
    if_neg (hne '\t' (by decide)), if_neg hlt, String.toList_singleton]

theorem head?_escape_of_mem {c : Char} (h : c ∈ escaped) : (escape c).toList.head? = some '\\' := by
  have hall : (escaped.all fun c => (escape c).toList.head? = some '\\') = true := by
    decide +kernel
  simpa using List.all_eq_true.mp hall c h

/-- No escape is the beginning of another one. -/
theorem eq_of_escape_begins {c d : Char} (hc : c ∈ escaped) (hd : d ∈ escaped)
    (h : (escape c).toList <+: (escape d).toList) : c = d := by
  have hall : (escaped.all fun c => escaped.all fun d =>
      (escape c).toList.isPrefixOf (escape d).toList → c = d) = true := by
    decide +kernel
  have hboth := List.all_eq_true.mp (List.all_eq_true.mp hall c hc) d hd
  exact of_decide_eq_true hboth (List.isPrefixOf_iff_prefix.mpr h)

/-- How a character is printed begins with itself or with a backslash, and not with a quote. -/
theorem escape_eq_cons (c : Char) :
    ∃ d tail, (escape c).toList = d :: tail ∧ d ≠ '"' ∧ (d = '\\' ↔ c ∈ escaped) := by
  by_cases h : c ∈ escaped
  · obtain ⟨tail, htail⟩ := List.head?_eq_some_iff.mp (head?_escape_of_mem h)
    exact ⟨'\\', tail, htail, by decide, by simp [h]⟩
  · refine ⟨c, [], escape_of_notMem h, ?_, ?_⟩
    · rintro rfl
      exact h (by decide)
    · constructor
      · rintro rfl
        exact absurd (by decide) h
      · intro hc
        exact absurd hc h

theorem escape_append_inj {c d : Char} {rest rest' : List Char}
    (h : (escape c).toList ++ rest = (escape d).toList ++ rest') : c = d ∧ rest = rest' := by
  have hcd : c = d := by
    obtain ⟨e, etail, he, -, hc⟩ := escape_eq_cons c
    obtain ⟨f, ftail, hf, -, hd⟩ := escape_eq_cons d
    have hef : e = f := by
      rw [he, hf] at h
      exact (List.cons.inj h).1
    by_cases hmem : c ∈ escaped
    · have hmem' : d ∈ escaped := hd.mp (hef ▸ hc.mpr hmem)
      have hleft : (escape c).toList <+: (escape d).toList ++ rest' := ⟨rest, h⟩
      have hright : (escape d).toList <+: (escape d).toList ++ rest' := List.prefix_append _ _
      rcases List.prefix_or_prefix_of_prefix hleft hright with hpre | hpre
      · exact eq_of_escape_begins hmem hmem' hpre
      · exact (eq_of_escape_begins hmem' hmem hpre).symm
    · have hmem' : d ∉ escaped := fun hd' => hmem (hc.mp (hef ▸ hd.mpr hd'))
      rw [escape_of_notMem hmem, escape_of_notMem hmem'] at h
      exact (List.cons.inj h).1
  subst hcd
  exact ⟨rfl, List.append_cancel_left h⟩

/-! ## Strings -/

theorem toList_quote (s : String) :
    (quote s).toList = '"' :: (s.toList.flatMap (fun c => (escape c).toList) ++ ['"']) := by
  simp [quote, String.toList_join, List.flatMap_map]

theorem quoted_append_inj (cs ds rest rest' : List Char)
    (h : cs.flatMap (fun c => (escape c).toList) ++ '"' :: rest =
      ds.flatMap (fun c => (escape c).toList) ++ '"' :: rest') : cs = ds ∧ rest = rest' := by
  induction cs generalizing ds with
  | nil =>
      cases ds with
      | nil => exact ⟨rfl, (List.cons.inj h).2⟩
      | cons d ds =>
          -- the string that is still open goes on with something else than a quote
          obtain ⟨e, tail, he, hquote, -⟩ := escape_eq_cons d
          simp [he, hquote.symm] at h
  | cons c cs ih =>
      cases ds with
      | nil =>
          obtain ⟨e, tail, he, hquote, -⟩ := escape_eq_cons c
          simp [he, hquote] at h
      | cons d ds =>
          simp only [List.flatMap_cons, List.append_assoc] at h
          obtain ⟨rfl, hbehind⟩ := escape_append_inj h
          obtain ⟨rfl, hrest⟩ := ih ds hbehind
          exact ⟨rfl, hrest⟩

theorem readable_quote (s : String) : Readable quote s := by
  intro t rest rest' _ _ h
  rw [toList_quote, toList_quote] at h
  simp only [List.cons_append, List.append_assoc, List.cons.injEq, true_and] at h
  obtain ⟨hst, hrest⟩ := quoted_append_inj _ _ _ _ h
  exact ⟨String.toList_inj.mp hst, hrest⟩

/-! ## Numbers -/

theorem toList_toString (n : Nat) : (toString n).toList = Nat.toDigits 10 n := by
  rw [Nat.toString_eq_repr, Nat.repr_eq_ofList_toDigits, String.toList_ofList]

theorem takeWhile_number (n : Nat) {rest : List Char} (h : Follows rest) :
    ((toString n).toList ++ rest).takeWhile Char.isDigit = (toString n).toList := by
  have hdigits : ∀ c ∈ (toString n).toList, c.isDigit = true := by
    intro c hc
    rw [toList_toString] at hc
    exact Nat.isDigit_of_mem_toDigits (by decide) (by decide) hc
  rw [List.takeWhile_append_of_pos hdigits]
  cases rest with
  | nil => simp
  | cons c rest =>
      have hc : c.isDigit = false := h c rfl
      simp [hc]

theorem readable_number (n : Nat) : Readable (toString : Nat → String) n := by
  intro m rest rest' hrest hrest' h
  have hsame : (toString n).toList = (toString m).toList := by
    rw [← takeWhile_number n hrest, h, takeWhile_number m hrest']
  rw [hsame] at h
  refine ⟨?_, List.append_cancel_left h⟩
  rw [toList_toString, toList_toString] at hsame
  rw [← @Nat.ofDigitChars_ten_toDigits n, hsame, Nat.ofDigitChars_ten_toDigits]

end TemplateMarkup.Json
